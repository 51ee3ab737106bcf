import Mathlib.Logic.Relation
import ParserAlgebra.Proofs.Rendering
import ParserAlgebra.Session.Blueprint

/-!
# Which rules are kept

The rule of a fixed point is kept while it is owned by a grammar in use, by a rule in a slot of a
live arena, or by a rule that is kept itself. What a store finds live when it is swept are these
rules and no others. A rule that is settled owns rules only that have been settled before it, so
owning goes round in no circle, and no rule is kept by itself.
-/

namespace ParserAlgebra

variable {σ α : Type}

theorem Arenas.mem_contents_iff {a : Arenas α} {v : α} :
    v ∈ a.contents ↔ ∃ slot, a.get? slot = some v := by
  simp only [contents, List.mem_flatMap, List.mem_filterMap, id_eq, exists_eq_right]
  constructor
  · rintro ⟨slots?, harena, hv⟩
    cases slots? with
    | none => cases hv
    | some slots =>
        obtain ⟨id, hid⟩ := List.getElem?_of_mem harena
        obtain ⟨index, hindex⟩ := List.getElem?_of_mem hv
        refine ⟨⟨id, index⟩, ?_⟩
        simp only [Option.getD_some] at hindex
        simp [get?, Arenas.slots?, hid, hindex]
  · rintro ⟨slot, hslot⟩
    obtain ⟨slots, hslots, hindex⟩ := Option.bind_eq_some_iff.1 hslot
    rw [Arenas.slots?, Option.join_eq_some_iff] at hslots
    rw [Option.join_eq_some_iff] at hindex
    exact ⟨some slots, List.mem_of_getElem? hslots, List.mem_of_getElem? hindex⟩

namespace Store

/-- The rule of one fixed point has another fixed point as its own. -/
def Owns (store : Store σ) (rule rule' : RuleId) : Prop :=
  ∃ g, store.fixed? rule = some g ∧ rule' ∈ g.owned

/-- What owns a rule, directly or through rules that are kept, without being owned itself: a grammar
in use, or a rule in a slot. Borrowers and handles do not keep what they refer to. -/
inductive Keeps (store : Store σ) (inUse : List (Grammar σ)) : RuleId → Prop
  | used {g : Grammar σ} {rule : RuleId} (hg : g ∈ inUse) (hrule : rule ∈ g.owned) :
      store.Keeps inUse rule
  | stored {slot : Slot} {g : Grammar σ} {rule : RuleId} (hg : store.handle? slot = some g)
      (hrule : rule ∈ g.owned) : store.Keeps inUse rule
  | through {rule rule' : RuleId} (h : store.Keeps inUse rule) (howns : store.Owns rule rule') :
      store.Keeps inUse rule'

variable {store : Store σ} {inUse : List (Grammar σ)} {rule rule' : RuleId} {g : Grammar σ}

section Reach

variable {found rules out : List RuleId}

/-- What exploring some rules adds to those that have been found: these rules, and with each rule
all that it owns. -/
structure Explores (store : Store σ) (rules found out : List RuleId) : Prop where
  kept : found ⊆ out
  entered : rules ⊆ out
  closed : ∀ rule ∈ out, rule ∉ found → ∀ rule', store.Owns rule rule' → rule' ∈ out
  sound : ∀ rule ∈ out, rule ∈ found ∨
    ∃ first ∈ rules, Relation.ReflTransGen store.Owns first rule

theorem Explores.refl (store : Store σ) (found : List RuleId) : store.Explores [] found found :=
  ⟨fun _ => id, List.nil_subset _, fun _ hrule hnew => absurd hrule hnew, fun _ => .inl⟩

theorem mem_owned_iff_owns :
    rule' ∈ (store.fixed? rule).elim [] Grammar.owned ↔ store.Owns rule rule' := by
  unfold Owns
  cases store.fixed? rule with
  | none => simp
  | some g => simp

/-- First what a new rule owns, then the other rules. -/
theorem Explores.cons {middle : List RuleId} (hnew : rule ∉ found)
    (h : store.Explores ((store.fixed? rule).elim [] Grammar.owned) (rule :: found) middle)
    (h' : store.Explores rules middle out) : store.Explores (rule :: rules) found out := by
  have hrule : rule ∈ middle := h.kept List.mem_cons_self
  constructor
  · exact fun other hother => h'.kept (h.kept (List.mem_cons_of_mem _ hother))
  · exact List.cons_subset.2 ⟨h'.kept hrule, h'.entered⟩
  · intro other hother hfound next hnext
    by_cases hmiddle : other ∈ middle
    · by_cases hsame : other = rule
      · subst hsame
        exact h'.kept (h.entered (mem_owned_iff_owns.2 hnext))
      · exact h'.kept (h.closed other hmiddle (by simp [hsame, hfound]) next hnext)
    · exact h'.closed other hother hmiddle next hnext
  · intro other hother
    rcases h'.sound other hother with hmiddle | ⟨first, hfirst, hpath⟩
    · rcases h.sound other hmiddle with hfound | ⟨first, hfirst, hpath⟩
      · rcases List.mem_cons.1 hfound with rfl | hfound
        · exact .inr ⟨other, List.mem_cons_self, .refl⟩
        · exact .inl hfound
      · exact .inr ⟨rule, List.mem_cons_self, .head (mem_owned_iff_owns.1 hfirst) hpath⟩
    · exact .inr ⟨first, List.mem_cons_of_mem _ hfirst, hpath⟩

theorem Explores.cons_of_mem (hrule : rule ∈ found) (h : store.Explores rules found out) :
    store.Explores (rule :: rules) found out := by
  refine ⟨h.kept, List.cons_subset.2 ⟨h.kept hrule, h.entered⟩, h.closed, fun other hother => ?_⟩
  rcases h.sound other hother with hfound | ⟨first, hfirst, hpath⟩
  · exact .inl hfound
  · exact .inr ⟨first, List.mem_cons_of_mem _ hfirst, hpath⟩

/-- The number of rules in the table that have not been found bounds the steps in a row. -/
theorem explores_reach {n : Nat} (hn : missing (Finset.range store.rules.length) found < n) :
    store.Explores rules found (store.reach n found rules) := by
  induction n generalizing found rules with
  | zero => exact absurd hn (Nat.not_lt_zero _)
  | succ n ih =>
      rw [reach]
      induction rules generalizing found with
      | nil => exact .refl store found
      | cons rule rules ihrules =>
          rw [List.foldl_cons]
          by_cases hrule : rule ∈ found
          · rw [if_pos hrule]
            exact .cons_of_mem hrule (ihrules hn)
          · rw [if_neg hrule]
            have hinner : store.Explores ((store.fixed? rule).elim [] Grammar.owned)
                (rule :: found) (store.reach n (rule :: found)
                  ((store.fixed? rule).elim [] Grammar.owned)) := by
              by_cases hlt : rule < store.rules.length
              · have hless := missing_lt (List.subset_cons_self rule found)
                  (Finset.mem_range.2 hlt) hrule List.mem_cons_self
                exact ih (by omega)
              · -- There is no such rule, so it owns nothing.
                have hnone : store.fixed? rule = none := by
                  rw [fixed?, List.getElem?_eq_none (Nat.not_lt.1 hlt)]
                  rfl
                rw [hnone]
                cases n <;> exact .refl store _
            refine hinner.cons hrule (ihrules (lt_of_le_of_lt (missing_anti ?_) hn))
            exact fun other hother => hinner.kept (List.mem_cons_of_mem _ hother)

end Reach

theorem Keeps.of_path (h : store.Keeps inUse rule)
    (hpath : Relation.ReflTransGen store.Owns rule rule') : store.Keeps inUse rule' := by
  induction hpath with
  | refl => exact h
  | tail _ howns ih => exact .through ih howns

/-- A sweep finds live what is kept, and nothing else. -/
theorem mem_live_iff : rule ∈ store.live inUse ↔ store.Keeps inUse rule := by
  have hroots (rule : RuleId) :
      rule ∈ (inUse ++ store.arenas.contents.filterMap Content.rule?).flatMap Grammar.owned ↔
        (∃ g ∈ inUse, rule ∈ g.owned) ∨ ∃ slot g, store.handle? slot = some g ∧ rule ∈ g.owned := by
    have hstored (g : Grammar σ) : g ∈ store.arenas.contents.filterMap Content.rule? ↔
        ∃ slot, store.handle? slot = some g := by
      simp only [List.mem_filterMap, Arenas.mem_contents_iff, handle?, Option.bind_eq_some_iff]
      constructor
      · rintro ⟨content, ⟨slot, hslot⟩, hrule⟩
        exact ⟨slot, content, hslot, hrule⟩
      · rintro ⟨slot, content, hslot, hrule⟩
        exact ⟨content, ⟨slot, hslot⟩, hrule⟩
    simp only [List.mem_flatMap, List.mem_append, or_and_right, exists_or, hstored]
    refine or_congr_right ⟨?_, ?_⟩
    · rintro ⟨g, ⟨slot, hslot⟩, hrule⟩
      exact ⟨slot, g, hslot, hrule⟩
    · rintro ⟨slot, g, hslot, hrule⟩
      exact ⟨g, ⟨slot, hslot⟩, hrule⟩
  have hmissing : missing (Finset.range store.rules.length) [] < store.rules.length + 1 := by
    have hcard := missing_le_card (Finset.range store.rules.length) []
    rw [Finset.card_range] at hcard
    omega
  have hexplores : store.Explores
      ((inUse ++ store.arenas.contents.filterMap Content.rule?).flatMap Grammar.owned) []
      (store.live inUse) := explores_reach hmissing
  constructor
  · intro hrule
    obtain hfound | ⟨first, hfirst, hpath⟩ := hexplores.sound rule hrule
    · cases hfound
    · rcases (hroots first).1 hfirst with ⟨g, hg, howned⟩ | ⟨slot, g, hg, howned⟩
      · exact .of_path (.used hg howned) hpath
      · exact .of_path (.stored hg howned) hpath
  · intro h
    induction h with
    | used hg hrule => exact hexplores.entered ((hroots _).2 (.inl ⟨_, hg, hrule⟩))
    | stored hg hrule => exact hexplores.entered ((hroots _).2 (.inr ⟨_, _, hg, hrule⟩))
    | through _ howns ih => exact hexplores.closed _ ih List.not_mem_nil _ howns

theorem fixed?_sweep (store : Store σ) (inUse : List (Grammar σ)) (rule : RuleId) :
    (store.sweep inUse).fixed? rule =
      if rule ∈ store.live inUse then store.fixed? rule else none := by
  rw [fixed?, sweep, List.getElem?_mapIdx, fixed?]
  cases store.rules[rule]? with
  | none => simp
  | some g? => by_cases hrule : rule ∈ store.live inUse <;> simp [hrule]

/-- All fixed points that a grammar owns have rules. -/
def Carries (store : Store σ) (g : Grammar σ) : Prop :=
  ∀ rule ∈ g.owned, (store.fixed? rule).isSome

/-- Whatever owns a rule keeps it, and owning goes round in no circle. -/
structure Sound (store : Store σ) (inUse : List (Grammar σ)) : Prop where
  used : ∀ g ∈ inUse, store.Carries g
  stored : ∀ slot g, store.handle? slot = some g → store.Carries g
  settled : ∀ rule g, store.fixed? rule = some g → store.Carries g
  acyclic : ∀ rule, ¬ Relation.TransGen store.Owns rule rule

namespace Sound

theorem isSome_of_keeps (h : store.Sound inUse) (hrule : store.Keeps inUse rule) :
    (store.fixed? rule).isSome := by
  induction hrule with
  | used hg hrule => exact h.used _ hg _ hrule
  | stored hg hrule => exact h.stored _ _ hg _ hrule
  | through _ howns _ =>
      obtain ⟨g, hg, hrule⟩ := howns
      exact h.settled _ g hg _ hrule

end Sound

section Sweep

theorem fixed?_sweep_of_keeps (h : store.Keeps inUse rule) :
    (store.sweep inUse).fixed? rule = store.fixed? rule := by
  rw [fixed?_sweep, if_pos (mem_live_iff.2 h)]

theorem fixed?_sweep_of_not_keeps (h : ¬ store.Keeps inUse rule) :
    (store.sweep inUse).fixed? rule = none := by
  rw [fixed?_sweep, if_neg fun hlive => h (mem_live_iff.1 hlive)]

theorem owns_of_sweep (h : (store.sweep inUse).Owns rule rule') : store.Owns rule rule' := by
  obtain ⟨g, hg, hrule⟩ := h
  rw [fixed?_sweep] at hg
  split at hg
  · exact ⟨g, hg, hrule⟩
  · cases hg

/-- A sweep gives up nothing that keeps a rule. -/
theorem keeps_sweep_iff : (store.sweep inUse).Keeps inUse rule ↔ store.Keeps inUse rule := by
  constructor
  · intro h
    induction h with
    | used hg hrule => exact .used hg hrule
    | stored hg hrule => exact .stored hg hrule
    | through _ howns ih => exact .through ih (owns_of_sweep howns)
  · intro h
    induction h with
    | used hg hrule => exact .used hg hrule
    | stored hg hrule => exact .stored hg hrule
    | through h howns ih =>
        obtain ⟨g, hg, hrule⟩ := howns
        exact .through ih ⟨g, (fixed?_sweep_of_keeps h).trans hg, hrule⟩

theorem Sound.sweep (h : store.Sound inUse) : (store.sweep inUse).Sound inUse := by
  have hcarries {g : Grammar σ} (hg : ∀ rule ∈ g.owned, store.Keeps inUse rule) :
      (store.sweep inUse).Carries g := by
    intro rule hrule
    rw [fixed?_sweep_of_keeps (hg rule hrule)]
    exact h.isSome_of_keeps (hg rule hrule)
  constructor
  · exact fun g hg => hcarries fun rule hrule => .used hg hrule
  · exact fun slot g hg => hcarries fun rule hrule => .stored hg hrule
  · intro rule g hg
    by_cases hrule : store.Keeps inUse rule
    · rw [fixed?_sweep_of_keeps hrule] at hg
      exact hcarries fun rule' howned => .through hrule ⟨g, hg, howned⟩
    · rw [fixed?_sweep_of_not_keeps hrule] at hg
      cases hg
  · intro rule hcycle
    have hle : (store.sweep inUse).Owns ≤ store.Owns := fun _ _ => owns_of_sweep
    exact h.acyclic rule (Relation.TransGen.mono hle _ _ hcycle)

/-- After a sweep exactly the rules that are kept are there. -/
theorem Sound.isSome_fixed?_sweep_iff (h : store.Sound inUse) :
    ((store.sweep inUse).fixed? rule).isSome ↔ (store.sweep inUse).Keeps inUse rule := by
  rw [keeps_sweep_iff]
  by_cases hrule : store.Keeps inUse rule
  · rw [fixed?_sweep_of_keeps hrule]
    exact iff_of_true (h.isSome_of_keeps hrule) hrule
  · rw [fixed?_sweep_of_not_keeps hrule]
    exact iff_of_false nofun hrule

end Sweep

section Growth

variable {store' store'' : Store σ}

theorem lt_of_fixed? (h : store.fixed? rule = some g) : rule < store.rules.length := by
  by_contra hge
  rw [fixed?, List.getElem?_eq_none (Nat.not_lt.1 hge)] at h
  cases h

theorem fixed?_eq_of_grown (h : store.rules <+: store'.rules) (hrule : rule < store.rules.length) :
    store'.fixed? rule = store.fixed? rule := by
  obtain ⟨later, hlater⟩ := h
  rw [fixed?, fixed?, ← hlater, List.getElem?_append_left hrule]

/-- New rules may have come, behind those that were there. -/
structure GrowsTo (store store' : Store σ) : Prop where
  arenas : store'.arenas = store.arenas
  rules : store.rules <+: store'.rules

namespace GrowsTo

theorem refl (store : Store σ) : store.GrowsTo store :=
  ⟨rfl, List.prefix_rfl⟩

theorem trans (h : store.GrowsTo store') (h' : store'.GrowsTo store'') : store.GrowsTo store'' :=
  ⟨h'.arenas.trans h.arenas, h.rules.trans h'.rules⟩

theorem isSome (h : store.GrowsTo store') (hsome : (store.fixed? rule).isSome) :
    (store'.fixed? rule).isSome := by
  obtain ⟨g, hg⟩ := Option.isSome_iff_exists.1 hsome
  rwa [fixed?_eq_of_grown h.rules (lt_of_fixed? hg)]

end GrowsTo

theorem fixed?_announce (store : Store σ) (rule : RuleId) :
    store.announce.2.fixed? rule = store.fixed? rule := by
  unfold fixed? announce
  dsimp only
  rcases Nat.lt_trichotomy rule store.rules.length with hlt | rfl | hgt
  · rw [List.getElem?_append_left hlt]
  · rw [List.getElem?_concat_length, List.getElem?_eq_none (Nat.le_refl _)]
    rfl
  · have hlength : (store.rules ++ [none]).length ≤ rule := by
      rw [List.length_append, List.length_singleton]
      exact Nat.succ_le_of_lt hgt
    rw [List.getElem?_eq_none hlength, List.getElem?_eq_none (Nat.le_of_lt hgt)]

theorem growsTo_announce (store : Store σ) : store.GrowsTo store.announce.2 :=
  ⟨rfl, List.prefix_append _ _⟩

/-- The same rules of fixed points, with fewer rules in slots and other grammars in use. -/
theorem Sound.congr {inUse' : List (Grammar σ)} (h : store.Sound inUse)
    (hfixed : ∀ rule, store'.fixed? rule = store.fixed? rule)
    (hstored : ∀ slot g, store'.handle? slot = some g → store.Carries g)
    (hused : ∀ g ∈ inUse', store.Carries g) : store'.Sound inUse' := by
  have hcarries {g : Grammar σ} (hg : store.Carries g) : store'.Carries g := by
    intro rule hrule
    rw [hfixed]
    exact hg rule hrule
  have howns {rule rule' : RuleId} (hrule : store'.Owns rule rule') : store.Owns rule rule' := by
    obtain ⟨g, hg, howned⟩ := hrule
    exact ⟨g, (hfixed rule).symm.trans hg, howned⟩
  constructor
  · exact fun g hg => hcarries (hused g hg)
  · exact fun slot g hg => hcarries (hstored slot g hg)
  · exact fun rule g hg => hcarries (h.settled rule g ((hfixed rule).symm.trans hg))
  · intro rule hcycle
    have hle : store'.Owns ≤ store.Owns := fun _ _ => howns
    exact h.acyclic rule (Relation.TransGen.mono hle _ _ hcycle)

theorem Sound.announce (h : store.Sound inUse) : store.announce.2.Sound inUse :=
  h.congr store.fixed?_announce h.stored h.used

theorem fixed?_settle (hrule : rule < store.rules.length) (g : Grammar σ) (other : RuleId) :
    (store.settle rule g).fixed? other =
      if other = rule then some g else store.fixed? other := by
  unfold fixed? settle
  by_cases hother : other = rule
  · subst hother
    rw [List.getElem?_set_self hrule, if_pos rfl]
    rfl
  · rw [List.getElem?_set_ne (Ne.symm hother), if_neg hother]

/-- A rule that is missing is owned by nothing, so it closes no circle when it is settled. -/
theorem Sound.settle (h : store.Sound inUse) (hrule : rule < store.rules.length)
    (hmissing : store.fixed? rule = none) (hg : store.Carries g) :
    (store.settle rule g).Sound inUse := by
  have hcarries {g' : Grammar σ} (hg' : store.Carries g') : (store.settle rule g).Carries g' := by
    intro other hother
    rw [fixed?_settle hrule]
    split
    · rfl
    · exact hg' other hother
  have hnot {g' : Grammar σ} (hg' : store.Carries g') : rule ∉ g'.owned := by
    intro howned
    have hsome := hg' rule howned
    rw [hmissing] at hsome
    cases hsome
  have howns {first second : RuleId} (hedge : (store.settle rule g).Owns first second) :
      second ≠ rule ∧ (first ≠ rule → store.Owns first second) := by
    obtain ⟨g', hg', howned⟩ := hedge
    rw [fixed?_settle hrule] at hg'
    split at hg'
    · cases hg'
      refine ⟨?_, fun hfirst => absurd ‹_› hfirst⟩
      rintro rfl
      exact hnot hg howned
    · refine ⟨?_, fun _ => ⟨g', hg', howned⟩⟩
      rintro rfl
      exact hnot (h.settled first g' hg') howned
  have hpath {first last : RuleId} (hpath : Relation.TransGen (store.settle rule g).Owns first last)
      (hfirst : first ≠ rule) : last ≠ rule ∧ Relation.TransGen store.Owns first last := by
    induction hpath with
    | single hedge => exact ⟨(howns hedge).1, .single ((howns hedge).2 hfirst)⟩
    | tail _ hedge ih => exact ⟨(howns hedge).1, ih.2.tail ((howns hedge).2 ih.1)⟩
  constructor
  · exact fun g' hg' => hcarries (h.used g' hg')
  · exact fun slot g' hg' => hcarries (h.stored slot g' hg')
  · intro other g' hg'
    rw [fixed?_settle hrule] at hg'
    split at hg'
    · cases hg'
      exact hcarries hg
    · exact hcarries (h.settled other g' hg')
  · intro other hcycle
    obtain ⟨last, -, hedge⟩ := Relation.TransGen.tail'_iff.1 hcycle
    exact h.acyclic other (hpath hcycle (howns hedge).1).2

/-- Between its announcement and its settlement a rule is missing, whatever is built meanwhile. -/
theorem settle_of_growsTo_announced (hgrows : store.announce.2.GrowsTo store')
    (hsound : store'.Sound inUse) (hg : store'.Carries g) :
    store.GrowsTo (store'.settle store.announce.1 g) ∧
      (store'.settle store.announce.1 g).Sound inUse ∧
        (store'.settle store.announce.1 g).fixed? store.announce.1 = some g := by
  obtain ⟨later, hlater⟩ := hgrows.rules
  have hrules : store'.rules = store.rules ++ none :: later := by
    rw [← hlater]
    exact List.append_assoc _ _ _
  have hlt : store.announce.1 < store'.rules.length := by
    rw [hrules, List.length_append, List.length_cons]
    exact Nat.lt_add_of_pos_right (Nat.succ_pos _)
  have hmissing : store'.fixed? store.announce.1 = none := by
    rw [fixed?, hrules]
    simp [announce]
  refine ⟨⟨hgrows.arenas, ?_⟩, hsound.settle hlt hmissing hg, ?_⟩
  · refine ⟨some g :: later, ?_⟩
    rw [settle, hrules]
    simp [announce]
  · rw [fixed?_settle hlt, if_pos rfl]

end Growth

end Store

end ParserAlgebra
