import Mathlib.Algebra.Order.BigOperators.Group.List
import Mathlib.Data.Finset.Card
import Mathlib.Tactic.Linarith
import ParserAlgebra.Grammar.Ebnf

/-!
# Renderings come to an end

What a rendering can still enter are the handles that it has not marked and the names that are not
among its definitions. Each time it leaves the tree of a grammar for a rule of the store it enters
one of them, so the depth of a rendering is bounded, and `Store.depthBound` is such a bound.
-/

namespace ParserAlgebra

variable {σ α : Type}

/-- The number of elements of a finite set that a list does not have. -/
def missing [DecidableEq α] (s : Finset α) (l : List α) : Nat :=
  (s.filter (· ∉ l)).card

section Missing

variable [DecidableEq α] {s : Finset α} {l l' : List α}

theorem missing_le_card (s : Finset α) (l : List α) : missing s l ≤ s.card :=
  Finset.card_filter_le _ _

theorem filter_notMem_subset (s : Finset α) (h : l ⊆ l') :
    s.filter (· ∉ l') ⊆ s.filter (· ∉ l) := by
  intro a ha
  rw [Finset.mem_filter] at ha ⊢
  exact ⟨ha.1, fun hl => ha.2 (h hl)⟩

theorem missing_anti (h : l ⊆ l') : missing s l' ≤ missing s l :=
  Finset.card_le_card (filter_notMem_subset s h)

theorem missing_lt (h : l ⊆ l') {a : α} (has : a ∈ s) (hal : a ∉ l) (hal' : a ∈ l') :
    missing s l' < missing s l := by
  apply Finset.card_lt_card
  apply (Finset.ssubset_iff_of_subset (filter_notMem_subset s h)).2
  refine ⟨a, Finset.mem_filter.2 ⟨has, hal⟩, ?_⟩
  intro ha
  exact (Finset.mem_filter.1 ha).2 hal'

end Missing

namespace Definitions

theorem names_subset_insert (d : Definitions) (name body : String) :
    d.names ⊆ (d.insert name body).names := by
  intro other hother
  obtain ⟨entry, hentry, rfl⟩ := List.mem_map.1 hother
  by_cases heq : entry.1 = name
  · exact List.mem_map.2 ⟨(name, body), by simp [insert], heq.symm⟩
  · exact List.mem_map.2 ⟨entry, by simp [insert, hentry, heq], rfl⟩

theorem mem_names_insert (d : Definitions) (name body : String) :
    name ∈ (d.insert name body).names :=
  List.mem_map.2 ⟨(name, body), by simp [insert], rfl⟩

end Definitions

namespace Store

/-- The slots of one arena that hold rules. -/
def ruleSlotsOf (arena : ArenaId) (slots? : Option (List (Option (Content σ)))) : List Slot :=
  (slots?.getD []).zipIdx.filterMap fun entry =>
    (entry.1.bind Content.rule?).map fun _ => ⟨arena, entry.2⟩

/-- The slots that hold rules. -/
def ruleSlots (store : Store σ) : List Slot :=
  store.arenas.arenas.zipIdx.flatMap fun entry => ruleSlotsOf entry.2 entry.1

theorem mem_ruleSlots {store : Store σ} {slot : Slot} {g : Grammar σ}
    (h : store.handle? slot = some g) : slot ∈ store.ruleSlots := by
  obtain ⟨content, hget, hrule⟩ := Option.bind_eq_some_iff.1 h
  obtain ⟨slots, hslots, hcontent⟩ := Option.bind_eq_some_iff.1 hget
  have harena := Option.join_eq_some_iff.1 hslots
  have hindex := Option.join_eq_some_iff.1 hcontent
  refine List.mem_flatMap.2 ⟨(some slots, slot.arena), List.mk_mem_zipIdx_iff_getElem?.2 harena, ?_⟩
  refine List.mem_filterMap.2
    ⟨(some content, slot.index), List.mk_mem_zipIdx_iff_getElem?.2 hindex, ?_⟩
  simp [hrule]

theorem length_filterMap_zipIdx {β γ : Type} (f : α → Option β) (mk : Nat → γ) (l : List α)
    (k : Nat) :
    ((l.zipIdx k).filterMap fun entry => (f entry.1).map fun _ => mk entry.2).length =
      (l.filterMap f).length := by
  induction l generalizing k with
  | nil => rfl
  | cons a l ih =>
      have htail := ih (k + 1)
      cases hf : f a with
      | none => simpa [List.zipIdx_cons, hf] using htail
      | some b => simpa [List.zipIdx_cons, hf] using htail

theorem length_ruleSlotsOf (arena : ArenaId) (slots? : Option (List (Option (Content σ)))) :
    (ruleSlotsOf arena slots?).length =
      (((slots?.getD []).filterMap id).filterMap Content.rule?).length := by
  rw [List.filterMap_filterMap]
  exact length_filterMap_zipIdx (fun content? : Option (Content σ) => content?.bind Content.rule?)
    (Slot.mk arena) _ 0

theorem length_ruleSlots (store : Store σ) :
    store.ruleSlots.length = (store.arenas.contents.filterMap Content.rule?).length := by
  have hzip (l : List (Option (List (Option (Content σ))))) (k : Nat) :
      ((l.zipIdx k).flatMap fun entry => ruleSlotsOf entry.2 entry.1).length =
        ((l.flatMap fun slots? => (slots?.getD []).filterMap id).filterMap
          Content.rule?).length := by
    induction l generalizing k with
    | nil => rfl
    | cons slots? l ih =>
        rw [List.zipIdx_cons, List.flatMap_cons, List.flatMap_cons, List.filterMap_append,
          List.length_append, List.length_append, ih, length_ruleSlotsOf]
  exact hzip store.arenas.arenas 0

theorem mem_allRules_of_handle? {store : Store σ} {slot : Slot} {g : Grammar σ}
    (h : store.handle? slot = some g) : g ∈ store.allRules := by
  obtain ⟨content, hget, hrule⟩ := Option.bind_eq_some_iff.1 h
  obtain ⟨slots, hslots, hcontent⟩ := Option.bind_eq_some_iff.1 hget
  have harena := List.mem_of_getElem? (Option.join_eq_some_iff.1 hslots)
  have hindex := List.mem_of_getElem? (Option.join_eq_some_iff.1 hcontent)
  have hmem : content ∈ store.arenas.contents :=
    List.mem_flatMap.2 ⟨some slots, harena, List.mem_filterMap.2 ⟨some content, hindex, rfl⟩⟩
  exact List.mem_append_left _ (List.mem_filterMap.2 ⟨content, hmem, hrule⟩)

theorem mem_allRules_of_fixed? {store : Store σ} {rule : RuleId} {g : Grammar σ}
    (h : store.fixed? rule = some g) : g ∈ store.allRules := by
  have hmem := List.mem_of_getElem? (Option.join_eq_some_iff.1 h)
  exact List.mem_append_right _ (List.mem_filterMap.2 ⟨some g, hmem, rfl⟩)

theorem size_le_of_mem {store : Store σ} {g : Grammar σ} (h : g ∈ store.allRules) :
    g.size ≤ store.size :=
  List.single_le_sum (fun _ _ => Nat.zero_le _) _ (List.mem_map_of_mem h)

end Store

namespace Grammar

theorem size_pos (g : Grammar σ) : 0 < g.size := by
  cases g <;> exact Nat.succ_pos _

/-- The names of the fixed points in a grammar. -/
def fixedNames : Grammar σ → List String
  | .accept _ | .expect _ | .literal _ | .pattern _ _ | .succeed | .fail | .handle _ => []
  | .fixed _ name _ => [name]
  | .sequence a b | .choice a b | .sepBy a b => a.fixedNames ++ b.fixedNames
  | .repetition _ g | .option g | .discard g | .except _ g _ | .attempt g | .attemptPure g
  | .strict _ g | .trace _ g | .token g | .shared g | .reference _ g | .define _ g
  | .rename _ _ g => g.fixedNames
  | .all _ _ parts | .any _ _ parts => fixedNamesOf parts
where
  /-- The names of the fixed points in some parts. -/
  fixedNamesOf : List (Kind × Grammar σ) → List String
    | [] => []
    | (_, g) :: parts => g.fixedNames ++ fixedNamesOf parts

mutual

theorem length_fixedNames_le : (g : Grammar σ) → g.fixedNames.length ≤ g.size
  | .accept _ | .expect _ | .literal _ | .pattern _ _ | .succeed | .fail | .handle _ =>
    Nat.zero_le _
  | .fixed _ _ _ => Nat.le_refl 1
  | .sequence a b | .choice a b | .sepBy a b => by
    have ha := length_fixedNames_le a
    have hb := length_fixedNames_le b
    simp only [fixedNames, size, List.length_append]
    omega
  | .repetition _ g | .option g | .discard g | .except _ g _ | .attempt g | .attemptPure g
  | .strict _ g | .trace _ g | .token g | .shared g | .reference _ g | .define _ g
  | .rename _ _ g => Nat.le_succ_of_le (length_fixedNames_le g)
  | .all _ _ parts | .any _ _ parts => Nat.le_succ_of_le (length_fixedNamesOf_le parts)

theorem length_fixedNamesOf_le :
    (parts : List (Kind × Grammar σ)) → (fixedNames.fixedNamesOf parts).length ≤ size.sizes parts
  | [] => Nat.le_refl 0
  | (_, g) :: parts => by
    have hg := length_fixedNames_le g
    have hparts := length_fixedNamesOf_le parts
    simp only [fixedNames.fixedNamesOf, size.sizes, List.length_append]
    omega

end

end Grammar

namespace Rendering

/-- The names that have been entered among the definitions. -/
def names (r : Rendering) : List String :=
  (r.definitions.map Definitions.names).getD []

/-- What a rendering leads to has the same marks and collects definitions as well, or neither does;
no name gets lost. -/
structure LeadsTo (r r' : Rendering) : Prop where
  active : r'.active = r.active
  collects : r'.definitions.isSome = r.definitions.isSome
  names : r.names ⊆ r'.names

namespace LeadsTo

variable {r r' r'' : Rendering}

theorem refl (r : Rendering) : r.LeadsTo r :=
  ⟨rfl, rfl, List.Subset.refl _⟩

theorem trans (h : r.LeadsTo r') (h' : r'.LeadsTo r'') : r.LeadsTo r'' :=
  ⟨h'.active.trans h.active, h'.collects.trans h.collects, List.Subset.trans h.names h'.names⟩

theorem of_map_definitions {f : Definitions → Definitions} (hf : ∀ d, d.names ⊆ (f d).names)
    (r : Rendering) : r.LeadsTo { r with definitions := r.definitions.map f } := by
  obtain ⟨active, definitions⟩ := r
  cases definitions with
  | none => exact refl _
  | some d => exact ⟨rfl, rfl, hf d⟩

end LeadsTo

variable {slots : Finset Slot} {names : Finset String} {r r' : Rendering}

/-- How many of some handles and names a rendering has not entered. -/
def unentered (slots : Finset Slot) (names : Finset String) (r : Rendering) : Nat :=
  missing slots r.active + missing names r.names

theorem LeadsTo.unentered_le (h : r.LeadsTo r') :
    r'.unentered slots names ≤ r.unentered slots names := by
  have hactive : missing slots r'.active = missing slots r.active := by rw [h.active]
  have hnames : missing names r'.names ≤ missing names r.names := missing_anti h.names
  unfold unentered
  omega

theorem enter?_eq_some_iff {active marked : List Slot} {slot : Slot} :
    enter? active slot = some marked ↔ slot ∉ active ∧ slot :: active = marked := by
  unfold enter?
  split <;> simp_all

/-- Marking a handle leaves one less to be entered. -/
theorem unentered_mark_lt {slot : Slot} (hslot : slot ∈ slots) (hactive : slot ∉ r.active) :
    ({ r with active := slot :: r.active } : Rendering).unentered slots names <
      r.unentered slots names :=
  Nat.add_lt_add_right
    (missing_lt (List.subset_cons_self _ _) hslot hactive List.mem_cons_self) _

end Rendering

namespace Grammar.Writer

open Rendering

variable {slots : Finset Slot} {names : Finset String} {b : Nat}

/-- A writer that comes to an end if not more than `b` of some handles and names are left to be
entered. -/
def Works (slots : Finset Slot) (names : Finset String) (b : Nat) (w : Writer) : Prop :=
  ∀ r, r.unentered slots names ≤ b → ∃ text r', w r = some (text, r') ∧ r.LeadsTo r'

theorem works_text (s : String) : (text s).Works slots names b := fun r _ =>
  ⟨s, r, rfl, .refl r⟩

/-- A rule is entered under its name; if the name is one of those that count, its body may go as
deep as with one less to be entered. -/
theorem works_reference {name : String} {body : Writer}
    (hbody : ∀ b' ≤ b, (name ∈ names → b' < b) → body.Works slots names b') :
    (reference name body).Works slots names b := by
  intro r hr
  obtain ⟨active, definitions⟩ := r
  cases definitions with
  | none => exact ⟨name, _, rfl, .refl _⟩
  | some d =>
      unfold reference
      dsimp only
      by_cases hcontains : d.contains name
      · rw [if_pos hcontains]
        exact ⟨name, _, rfl, .refl _⟩
      · rw [if_neg hcontains]
        have hname : name ∉ d.names := fun h => hcontains (Definitions.contains_iff.2 h)
        let entered : Rendering := ⟨active, some (d.insert name name)⟩
        have hentered : LeadsTo ⟨active, some d⟩ entered :=
          .of_map_definitions (fun d => d.names_subset_insert name name) ⟨active, some d⟩
        have hlt (hcounts : name ∈ names) : entered.unentered slots names < b :=
          (Nat.add_lt_add_left
            (missing_lt hentered.names hcounts hname (d.mem_names_insert name name)) _).trans_le hr
        obtain ⟨text, r', hwritten, hleads⟩ :=
          hbody _ (hentered.unentered_le.trans hr) hlt entered (Nat.le_refl _)
        have hamended : r'.LeadsTo
            { r' with definitions := r'.definitions.map (·.amend name text) } :=
          .of_map_definitions (fun d => (d.names_amend name text).symm ▸ List.Subset.refl _) r'
        refine ⟨name, _, ?_, (hentered.trans hleads).trans hamended⟩
        change (body entered >>= _) = _
        rw [hwritten]
        rfl

theorem works_define {name : String} {body : Writer} (hbody : body.Works slots names b) :
    (define name body).Works slots names b := by
  intro r hr
  obtain ⟨active, definitions⟩ := r
  cases definitions with
  | none => exact ⟨name, _, rfl, .refl _⟩
  | some d =>
      unfold define
      dsimp only
      split
      · exact ⟨name, _, rfl, .refl _⟩
      · obtain ⟨text, r', hwritten, hleads⟩ := hbody _ hr
        refine ⟨name, _, ?_, hleads.trans <|
          .of_map_definitions (fun d => d.names_subset_insert name text) r'⟩
        rw [hwritten]
        rfl

/-- The rule of a handle may go as deep as with one handle less to be entered. -/
theorem works_handle {slot : Slot} (hslot : slot ∈ slots) {body : Writer}
    (hbody : ∀ b' < b, body.Works slots names b') :
    (handle slot body).Works slots names b := by
  intro r hr
  unfold handle
  cases hmarked : enter? r.active slot with
  | none => exact ⟨"...", r, rfl, .refl r⟩
  | some marked =>
      have hleave := leave_of_enter? hmarked
      obtain ⟨hactive, rfl⟩ := enter?_eq_some_iff.1 hmarked
      obtain ⟨text, r', hwritten, hleads⟩ :=
        hbody _ ((unentered_mark_lt hslot hactive).trans_le hr) _ (Nat.le_refl _)
      dsimp only
      rw [hwritten]
      refine ⟨text, _, rfl, ?_, hleads.collects, hleads.names⟩
      change leave r'.active slot = r.active
      rw [hleads.active]
      exact hleave

/-- The rank that a part is asked for before it is written has to be found, and has to leave the
marks alone. -/
theorem works_enclosed {rank : List Slot → Option (Rank × List Slot)} {part : Writer}
    (hrank : ∀ active, missing slots active ≤ b → ∃ own, rank active = some (own, active))
    (hpart : part.Works slots names b) (context : Rank) :
    (enclosed context rank part).Works slots names b := by
  intro r hr
  obtain ⟨own, hown⟩ := hrank r.active ((Nat.le_add_right _ _).trans hr)
  obtain ⟨text, r', hwritten, hleads⟩ := hpart r hr
  refine ⟨context.enclose own text, r', ?_, hleads⟩
  simp [enclosed, hown, hwritten]

theorem exists_each {parts : List Writer} (hparts : ∀ w ∈ parts, w.Works slots names b)
    {r : Rendering} (hr : r.unentered slots names ≤ b) :
    ∃ texts r', each parts r = some (texts, r') ∧ r.LeadsTo r' := by
  induction parts generalizing r with
  | nil => exact ⟨[], r, rfl, .refl r⟩
  | cons w parts ih =>
      rw [List.forall_mem_cons] at hparts
      obtain ⟨text, r', hwritten, hleads⟩ := hparts.1 r hr
      obtain ⟨texts, r'', heach, hleads'⟩ := ih hparts.2 (hleads.unentered_le.trans hr)
      refine ⟨text :: texts, r'', ?_, hleads.trans hleads'⟩
      simp [each, hwritten, heach]

theorem works_separated {parts : List Writer} (hparts : ∀ w ∈ parts, w.Works slots names b)
    (separator : String) : (separated separator parts).Works slots names b := by
  intro r hr
  obtain ⟨texts, r', heach, hleads⟩ := exists_each hparts hr
  refine ⟨separator.intercalate texts, r', ?_, hleads⟩
  simp [separated, heach]

theorem works_around {part : Writer} (hpart : part.Works slots names b) (before after : String) :
    (around before after part).Works slots names b := by
  intro r hr
  obtain ⟨text, r', hwritten, hleads⟩ := hpart r hr
  refine ⟨before ++ text ++ after, r', ?_, hleads⟩
  simp [around, hwritten]

end Grammar.Writer

namespace Grammar

variable {store : Store σ}

/-- What a rule of the store needs once one thing less is left to be entered. -/
theorem size_add_mul_le {g : Grammar σ} (hg : g ∈ store.allRules) {b b' n : Nat} (hb : b' < b)
    (hn : 1 + store.size * b ≤ n + 1) : g.size + store.size * b' ≤ n := by
  have hsize := Store.size_le_of_mem hg
  have hmul : store.size * (b' + 1) ≤ store.size * b := Nat.mul_le_mul_left _ hb
  rw [Nat.mul_succ] at hmul
  omega

theorem exists_rankWithin {n : Nat} {g : Grammar σ} {active : List Slot}
    (hn : g.size + store.size * missing store.ruleSlots.toFinset active ≤ n) :
    ∃ own, g.rankWithin store n active = some (own, active) := by
  induction n generalizing g active with
  | zero =>
      have hpos := g.size_pos
      omega
  | succ n ih =>
      cases g with
      | discard g | attempt g | attemptPure g | strict _ g | trace _ g | token g | shared g =>
          simp only [size] at hn
          exact ih (by omega)
      | all _ _ parts | any _ _ parts =>
          match parts with
          | [] => exact ⟨_, rfl⟩
          | [(_, g)] =>
              simp only [size, size.sizes] at hn
              exact ih (by omega)
          | _ :: _ :: _ => exact ⟨_, rfl⟩
      | handle slot =>
          rw [rankWithin]
          cases hrule : store.handle? slot with
          | none => exact ⟨_, rfl⟩
          | some g =>
              cases hmarked : Rendering.enter? active slot with
              | none => exact ⟨_, rfl⟩
              | some marked =>
                  have hleave := Rendering.leave_of_enter? hmarked
                  obtain ⟨hfree, rfl⟩ := Rendering.enter?_eq_some_iff.1 hmarked
                  have hlt : missing store.ruleSlots.toFinset (slot :: active) <
                      missing store.ruleSlots.toFinset active :=
                    missing_lt (List.subset_cons_self _ _)
                      (List.mem_toFinset.2 (Store.mem_ruleSlots hrule)) hfree List.mem_cons_self
                  obtain ⟨own, hown⟩ :=
                    ih (size_add_mul_le (Store.mem_allRules_of_handle? hrule) hlt hn)
                  exact ⟨own, by simp [hown, hleave]⟩
      | _ => exact ⟨_, rfl⟩

theorem size_le_sizes {part : Kind × Grammar σ} {parts : List (Kind × Grammar σ)}
    (h : part ∈ parts) : part.2.size ≤ size.sizes parts := by
  induction parts with
  | nil => simp at h
  | cons other parts ih =>
      obtain ⟨kind, g⟩ := other
      rw [size.sizes]
      rcases List.mem_cons.1 h with rfl | h
      · exact Nat.le_add_right _ _
      · exact (ih h).trans (Nat.le_add_left _ _)

theorem mem_fixedNamesOf {part : Kind × Grammar σ} {parts : List (Kind × Grammar σ)}
    (h : part ∈ parts) {name : String} (hname : name ∈ part.2.fixedNames) :
    name ∈ fixedNames.fixedNamesOf parts := by
  induction parts with
  | nil => simp at h
  | cons other parts ih =>
      obtain ⟨kind, g⟩ := other
      rw [fixedNames.fixedNamesOf]
      rcases List.mem_cons.1 h with rfl | h
      · exact List.mem_append_left _ hname
      · exact List.mem_append_right _ (ih h)

variable {names : Finset String}

theorem works_under {n b : Nat} {g : Grammar σ} (hn : g.size + store.size * b ≤ n)
    (hg : (g.writeWithin store n).Works store.ruleSlots.toFinset names b) (context : Rank) :
    (Writer.enclosed context (g.rankWithin store n) (g.writeWithin store n)).Works
      store.ruleSlots.toFinset names b := by
  refine Writer.works_enclosed (fun active hactive => exists_rankWithin ?_) hg context
  exact (Nat.add_le_add_left (Nat.mul_le_mul_left _ hactive) _).trans hn

/-- A depth is enough for a grammar if, over its own size, it leaves room for the rules of the store
as many times as there are things left to be entered. -/
theorem works_writeWithin (hstore : ∀ g ∈ store.allRules, ∀ name ∈ g.fixedNames, name ∈ names)
    {n b : Nat} {g : Grammar σ} (hnames : ∀ name ∈ g.fixedNames, name ∈ names)
    (hn : g.size + store.size * b ≤ n) :
    (g.writeWithin store n).Works store.ruleSlots.toFinset names b := by
  induction n generalizing g b with
  | zero =>
      have hpos := g.size_pos
      omega
  | succ n ih =>
      have hpart (g : Grammar σ) (hnames : ∀ name ∈ g.fixedNames, name ∈ names)
          (hn : g.size + store.size * b ≤ n) :
          (g.writeWithin store n).Works store.ruleSlots.toFinset names b := ih hnames hn
      have hunder (g : Grammar σ) (hnames : ∀ name ∈ g.fixedNames, name ∈ names)
          (hn : g.size + store.size * b ≤ n) (context : Rank) :
          (Writer.enclosed context (g.rankWithin store n) (g.writeWithin store n)).Works
            store.ruleSlots.toFinset names b := works_under hn (hpart g hnames hn) context
      have hrule (g : Grammar σ) (hg : g ∈ store.allRules) (hn : 1 + store.size * b ≤ n + 1)
          (b' : Nat) (hb : b' < b) :
          (g.writeWithin store n).Works store.ruleSlots.toFinset names b' :=
        ih (hstore g hg) (size_add_mul_le hg hb hn)
      have hparts (parts : List (Kind × Grammar σ))
          (hnames : ∀ name ∈ fixedNames.fixedNamesOf parts, name ∈ names)
          (hn : size.sizes parts + store.size * b ≤ n) (context : Rank) :
          ∀ w ∈ parts.map fun part => Writer.enclosed context (part.2.rankWithin store n)
            (part.2.writeWithin store n), w.Works store.ruleSlots.toFinset names b := by
        intro w hw
        obtain ⟨part, hpart, rfl⟩ := List.mem_map.1 hw
        have hsize := (Nat.add_le_add_right (size_le_sizes hpart) _).trans hn
        exact hunder part.2 (fun name h => hnames name (mem_fixedNamesOf hpart h)) hsize context
      cases g with
      | accept p | expect p | literal s | pattern source matcher | succeed | fail
      | rename name rank g => exact Writer.works_text _
      | sequence a c | choice a c =>
          simp only [size] at hn
          rw [fixedNames, List.forall_mem_append] at hnames
          refine Writer.works_separated ?_ _
          rw [List.forall_mem_cons, List.forall_mem_singleton]
          exact ⟨hunder a hnames.1 (by omega) _, hunder c hnames.2 (by omega) _⟩
      | sepBy item separator =>
          simp only [size] at hn
          rw [fixedNames, List.forall_mem_append] at hnames
          have hitem := hunder item hnames.1 (by omega) .sequence
          have hseparator := hunder separator hnames.2 (by omega) .sequence
          refine Writer.works_separated ?_ _
          rw [List.forall_mem_cons, List.forall_mem_singleton]
          refine ⟨hitem, Writer.works_around (Writer.works_separated ?_ _) _ _⟩
          rw [List.forall_mem_cons, List.forall_mem_singleton]
          exact ⟨hseparator, hitem⟩
      | repetition atLeast g =>
          simp only [size] at hn
          have hg := hpart g hnames (by omega)
          rw [writeWithin.eq_def]
          cases atLeast with
          | zero => exact Writer.works_around hg _ _
          | succ _ => exact Writer.works_around hg _ _
      | option g =>
          simp only [size] at hn
          exact Writer.works_around (hpart g hnames (by omega)) _ _
      | discard g | attempt g | attemptPure g | strict _ g | trace _ g | token g | shared g =>
          simp only [size] at hn
          exact hpart g hnames (by omega)
      | except kind g forbidden =>
          simp only [size] at hn
          exact Writer.works_around (hunder g hnames (by omega) _) _ _
      | reference name g =>
          simp only [size] at hn
          have hg := hpart g hnames (by omega)
          exact Writer.works_reference fun b' hb _ r hr => hg r (hr.trans hb)
      | define name g =>
          simp only [size] at hn
          exact Writer.works_define (hpart g hnames (by omega))
      | all _ _ parts | any _ _ parts =>
          simp only [size] at hn
          match parts with
          | [] => exact Writer.works_separated (hparts [] hnames (by omega) _) _
          | [(_, g)] =>
              simp only [size.sizes] at hn
              rw [fixedNames, fixedNames.fixedNamesOf, List.forall_mem_append] at hnames
              exact hpart g hnames.1 (by omega)
          | part :: part' :: parts =>
              exact Writer.works_separated (hparts (part :: part' :: parts) hnames (by omega) _) _
      | handle slot =>
          rw [writeWithin]
          cases hfound : store.handle? slot with
          | none => exact Writer.works_text _
          | some g =>
              exact Writer.works_handle (List.mem_toFinset.2 (Store.mem_ruleSlots hfound))
                (hrule g (Store.mem_allRules_of_handle? hfound) hn)
      | fixed hold name rule =>
          rw [writeWithin]
          refine Writer.works_reference fun b' hb hcounts => ?_
          cases hfound : store.fixed? rule with
          | none => exact Writer.works_text _
          | some g =>
              have hlt := hcounts (hnames name (List.mem_singleton_self name))
              exact hrule g (Store.mem_allRules_of_fixed? hfound) hn b' hlt

end Grammar

namespace Store

variable (store : Store σ) (g : Grammar σ)

theorem length_ruleSlots_le : store.ruleSlots.length ≤ store.size := by
  have hsizes : store.allRules.length ≤ store.size := by
    have hpos : ∀ size ∈ store.allRules.map Grammar.size, 1 ≤ size :=
      List.forall_mem_map.2 fun g _ => g.size_pos
    have hsum := List.length_le_sum_of_one_le _ hpos
    rwa [List.length_map] at hsum
  have hsplit : store.ruleSlots.length ≤ store.allRules.length := by
    rw [length_ruleSlots, allRules, List.length_append]
    exact Nat.le_add_right _ _
  exact hsplit.trans hsizes

/-- The names of the fixed points in a grammar and in the rules of the store. -/
def fixedNames : List String :=
  g.fixedNames ++ store.allRules.flatMap Grammar.fixedNames

theorem length_fixedNames_le : (store.fixedNames g).length ≤ g.size + store.size := by
  have hrules : (store.allRules.flatMap Grammar.fixedNames).length ≤ store.size := by
    rw [List.length_flatMap]
    exact List.sum_le_sum fun g _ => g.length_fixedNames_le
  have hown := g.length_fixedNames_le
  rw [fixedNames, List.length_append]
  omega

/-- The bound on the depth is enough for the handles and names of the store and the grammar. -/
theorem size_add_mul_le_depthBound :
    g.size + store.size * (store.ruleSlots.toFinset.card + (store.fixedNames g).toFinset.card) ≤
      store.depthBound g := by
  have hslots := (List.toFinset_card_le store.ruleSlots).trans store.length_ruleSlots_le
  have hnames := (List.toFinset_card_le (store.fixedNames g)).trans (store.length_fixedNames_le g)
  calc
    _ ≤ g.size + store.size * (store.size + (g.size + store.size)) :=
      Nat.add_le_add_left (Nat.mul_le_mul_left _ (Nat.add_le_add hslots hnames)) _
    _ ≤ 2 * (store.size + g.size + 1) * (store.size + g.size + 1) := by nlinarith

theorem exists_rank (active : List Slot) : ∃ own, store.rank g active = some (own, active) := by
  refine Grammar.exists_rankWithin (le_trans ?_ (store.size_add_mul_le_depthBound g))
  refine Nat.add_le_add_left (Nat.mul_le_mul_left _ ?_) _
  exact (missing_le_card _ _).trans (Nat.le_add_right _ _)

/-- Every grammar can be written in the course of every rendering. The marks are afterwards what
they were before. -/
theorem exists_write (r : Rendering) :
    ∃ text r', store.write g r = some (text, r') ∧ r.LeadsTo r' := by
  have hstore : ∀ rule ∈ store.allRules, ∀ name ∈ rule.fixedNames,
      name ∈ (store.fixedNames g).toFinset := by
    intro rule hrule name hname
    exact List.mem_toFinset.2 (List.mem_append_right _ (List.mem_flatMap.2 ⟨rule, hrule, hname⟩))
  have hnames : ∀ name ∈ g.fixedNames, name ∈ (store.fixedNames g).toFinset := by
    intro name hname
    exact List.mem_toFinset.2 (List.mem_append_left _ hname)
  have hr : r.unentered store.ruleSlots.toFinset (store.fixedNames g).toFinset ≤
      store.ruleSlots.toFinset.card + (store.fixedNames g).toFinset.card :=
    Nat.add_le_add (missing_le_card _ _) (missing_le_card _ _)
  exact Grammar.works_writeWithin hstore hnames (store.size_add_mul_le_depthBound g) r hr

theorem exists_ebnf : ∃ text, store.ebnf g = some text := by
  obtain ⟨text, r', hwritten, -⟩ := store.exists_write g (.fresh none)
  exact ⟨text, by rw [ebnf, hwritten]; rfl⟩

theorem exists_describe (definitions : Definitions) :
    ∃ text definitions', store.describe g definitions = some (text, definitions') := by
  obtain ⟨text, r', hwritten, hleads⟩ := store.exists_write g (.fresh (some definitions))
  obtain ⟨definitions', hdefinitions⟩ := Option.isSome_iff_exists.1 hleads.collects
  refine ⟨text, definitions', ?_⟩
  rw [describe, hwritten]
  simp [hdefinitions]

end Store

end ParserAlgebra
