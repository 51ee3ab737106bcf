import ParserAlgebra.Proofs.Involvement

/-!
# How a rule is written that refers to itself

A rule can refer to itself as a fixed point, which is written as its name and makes no marks, or by
a name for a handle that has the rule, which is marked while the rule is being written. Behind a
name that has been entered the mark is never come upon, so both ways are written alike, with the
same definitions, as long as nothing else than the name uses the handle.
-/

namespace ParserAlgebra

variable {σ : Type}

namespace Store

variable {store : Store σ} {name : String} {slot : Slot} {g q : Grammar σ}

/-- A body has been made a rule in two ways: as a fixed point with borrowed occurrences of it in the
holes, and as the rule of a slot with references to the slot in the holes. -/
structure BuiltBothWays (store : Store σ) (name : String) (slot : Slot) (rule : RuleId)
    (holes : List RuleId) (body : Grammar σ) : Prop where
  fixed : store.fixed? rule = some (body.plug holes (.fixed .borrower name rule))
  handle : store.handle? slot = some (body.plug holes (.reference name (.handle slot)))

/-- A grammar that goes on with the rule of a slot only as the reference of a name to it. -/
def CallsByName (store : Store σ) (name : String) (slot : Slot) (g : Grammar σ) : Prop :=
  .handle slot ∈ store.components g → g = .reference name (.handle slot)

theorem mem_components_of_mem_writtenParts (h : q ∈ g.writtenParts) : q ∈ store.components g := by
  cases g with
  | reference _ _ | define _ _ | rename _ _ _ | handle _ | fixed _ _ _ => cases h
  | _ => exact h

namespace Throughout

theorem callsByName_component (h : store.Throughout (store.CallsByName name slot) g)
    (hg : g ≠ .reference name (.handle slot)) (hq : q ∈ store.components g) :
    store.Throughout (store.CallsByName name slot) q ∧ q ≠ .handle slot := by
  refine ⟨h.component hq, ?_⟩
  rintro rfl
  exact hg (h.self hq)

theorem callsByName_writtenPart (h : store.Throughout (store.CallsByName name slot) g)
    (hq : q ∈ g.writtenParts) :
    store.Throughout (store.CallsByName name slot) q ∧ q ≠ .handle slot := by
  refine h.callsByName_component ?_ (mem_components_of_mem_writtenParts hq)
  rintro rfl
  cases hq

/-- What is used by its name only is not visible where a grammar is written. -/
theorem not_exposes (h : store.Throughout (store.CallsByName name slot) g)
    (hg : g ≠ .handle slot) : ¬ store.Exposes g slot := by
  intro hexposes
  generalize hother : slot = other at hexposes
  induction hexposes with
  | handle hslot => exact hg (hother ▸ rfl)
  | behind hslot hbody ih =>
      have hcomponent := h.callsByName_component nofun (Option.mem_toList.2 hslot)
      exact ih hcomponent.1 hcomponent.2 hother
  | part hq _ ih =>
      have hpart := h.callsByName_writtenPart hq
      exact ih hpart.1 hpart.2 hother

end Throughout

end Store

/-- Two renderings with the same definitions and the same marks, but for the mark of a slot, which
is made in the course of a definition of the name only. -/
structure Rendering.Abreast (name : String) (slot : Slot) (r r' : Rendering) : Prop where
  definitions : r.definitions = r'.definitions
  active : ∀ other, other ≠ slot → (other ∈ r.active ↔ other ∈ r'.active)
  entered : slot ∈ r.active ∨ slot ∈ r'.active → name ∈ r.names

namespace Rendering.Abreast

variable {name : String} {slot : Slot} {r r' s s' : Rendering}

theorem fresh (name : String) (slot : Slot) (definitions : Option Definitions) :
    Abreast name slot (.fresh definitions) (.fresh definitions) :=
  ⟨rfl, fun _ _ => .rfl, fun h => by simp [Rendering.fresh] at h⟩

theorem leadsTo (h : Abreast name slot r r') (hs : r.LeadsTo s) (hs' : r'.LeadsTo s')
    (hdefinitions : s.definitions = s'.definitions) : Abreast name slot s s' := by
  refine ⟨hdefinitions, ?_, ?_⟩
  · rw [hs.active, hs'.active]
    exact h.active
  · rw [hs.active, hs'.active]
    exact fun hslot => hs.names (h.entered hslot)

theorem mark (h : Abreast name slot r r') {other : Slot} (hother : other ≠ slot) :
    Abreast name slot { r with active := other :: r.active }
      { r' with active := other :: r'.active } := by
  refine ⟨h.definitions, fun o ho => ?_, fun hslot => h.entered ?_⟩
  · rw [List.mem_cons, List.mem_cons, h.active o ho]
  · simpa [List.mem_cons, hother.symm] using hslot

theorem unmarked {active active' : List Slot} {d : Definitions}
    (h : Abreast name slot ⟨active, some d⟩ ⟨active', some d⟩) (hnew : name ∉ d.names) :
    slot ∉ active ∧ slot ∉ active' :=
  ⟨fun hslot => hnew (h.entered (.inl hslot)), fun hslot => hnew (h.entered (.inr hslot))⟩

/-- Once the name has been entered, the mark may be made on either side. -/
theorem enter {active active' marked marked' : List Slot} {d : Definitions}
    (h : Abreast name slot ⟨active, some d⟩ ⟨active', some d⟩)
    (hmarked : marked = active ∨ marked = slot :: active)
    (hmarked' : marked' = active' ∨ marked' = slot :: active') :
    Abreast name slot ⟨marked, some (d.insert name name)⟩
      ⟨marked', some (d.insert name name)⟩ := by
  refine ⟨rfl, fun other hother => ?_, fun _ => d.mem_names_insert name name⟩
  have hin : other ∈ marked ↔ other ∈ active := by
    rcases hmarked with rfl | rfl <;> simp [hother]
  have hin' : other ∈ marked' ↔ other ∈ active' := by
    rcases hmarked' with rfl | rfl <;> simp [hother]
  exact hin.trans ((h.active other hother).trans hin'.symm)

end Rendering.Abreast

namespace Grammar

namespace Writer

open Rendering

variable {name : String} {slot : Slot}

/-- The bodies are compared where the name is new and has just been entered. -/
theorem preserving_reference_of_new {other : String} {body body' : Writer} (hleads : body.Leads)
    (hleads' : body'.Leads)
    (hbody : ∀ d active active' text s text' s',
      Abreast name slot ⟨active, some d⟩ ⟨active', some d⟩ → other ∉ d.names →
      body ⟨active, some (d.insert other other)⟩ = some (text, s) →
      body' ⟨active', some (d.insert other other)⟩ = some (text', s') →
        text = text' ∧ s.definitions = s'.definitions) :
    Preserving (Abreast name slot) (reference other body) (reference other body') := by
  intro r text s r' text' s' hr h h'
  have hs := leads_reference hleads r text s h
  have hs' := leads_reference hleads' r' text' s' h'
  obtain ⟨active, definitions⟩ := r
  obtain ⟨active', definitions'⟩ := r'
  obtain rfl : definitions = definitions' := hr.definitions
  obtain ⟨rfl, ⟨rfl, hknown⟩ | ⟨d, inner, t, hd, hnew, hinner, rfl⟩⟩ := eq_of_reference h
  · obtain ⟨rfl, ⟨rfl, -⟩ | ⟨d, inner, t, hd, hnew, -⟩⟩ := eq_of_reference h'
    · exact ⟨rfl, hr⟩
    · exact absurd (hknown d hd) hnew
  · obtain ⟨rfl, ⟨-, hknown⟩ | ⟨d', inner', t', hd', -, hinner', rfl⟩⟩ := eq_of_reference h'
    · exact absurd (hknown d hd) hnew
    · obtain rfl : definitions = some d := hd
      obtain rfl := Option.some.inj hd'
      obtain ⟨rfl, hdefinitions⟩ := hbody d active active' _ _ _ _ hr hnew hinner hinner'
      refine ⟨rfl, hr.leadsTo hs hs' ?_⟩
      change t.definitions.map _ = t'.definitions.map _
      rw [hdefinitions]

theorem preserving_reference {other : String} {body body' : Writer} (hleads : body.Leads)
    (hleads' : body'.Leads) (hbody : Preserving (Abreast name slot) body body') :
    Preserving (Abreast name slot) (reference other body) (reference other body') := by
  refine preserving_reference_of_new hleads hleads' ?_
  intro d active active' text s text' s' hr _ h h'
  have hentered := hr.leadsTo (.insert rfl other other) (.insert rfl other other) rfl
  obtain ⟨htext, hs⟩ := hbody _ _ _ _ _ _ hentered h h'
  exact ⟨htext, hs.definitions⟩

theorem preserving_define {other : String} {body body' : Writer} (hleads : body.Leads)
    (hleads' : body'.Leads) (hbody : Preserving (Abreast name slot) body body') :
    Preserving (Abreast name slot) (define other body) (define other body') := by
  intro r text s r' text' s' hr h h'
  have hs := leads_define hleads r text s h
  have hs' := leads_define hleads' r' text' s' h'
  obtain ⟨rfl, ⟨rfl, hknown⟩ | ⟨d, inner, t, hd, hnew, hinner, rfl⟩⟩ := eq_of_define h
  · obtain ⟨rfl, ⟨rfl, -⟩ | ⟨d, inner, t, hd, hnew, -⟩⟩ := eq_of_define h'
    · exact ⟨rfl, hr⟩
    · exact absurd (hknown d (hr.definitions.trans hd)) hnew
  · obtain ⟨rfl, ⟨-, hknown⟩ | ⟨d', inner', t', -, -, hinner', rfl⟩⟩ := eq_of_define h'
    · exact absurd (hknown d (hr.definitions.symm.trans hd)) hnew
    · obtain ⟨rfl, ht⟩ := hbody _ _ _ _ _ _ hr hinner hinner'
      refine ⟨rfl, hr.leadsTo hs hs' ?_⟩
      change t.definitions.map _ = t'.definitions.map _
      rw [ht.definitions]

theorem preserving_handle {other : Slot} (hother : other ≠ slot) {body body' : Writer}
    (hleads : body.Leads) (hleads' : body'.Leads)
    (hbody : Preserving (Abreast name slot) body body') :
    Preserving (Abreast name slot) (handle other body) (handle other body') := by
  intro r text s r' text' s' hr h h'
  have hs := leads_handle hleads r text s h
  have hs' := leads_handle hleads' r' text' s' h'
  obtain ⟨hin, rfl, rfl⟩ | ⟨hnew, t, hinner, rfl⟩ := eq_of_handle h
  · obtain ⟨-, rfl, rfl⟩ | ⟨hnew', -⟩ := eq_of_handle h'
    · exact ⟨rfl, hr⟩
    · exact absurd ((hr.active other hother).1 hin) hnew'
  · obtain ⟨hin', -⟩ | ⟨-, t', hinner', rfl⟩ := eq_of_handle h'
    · exact absurd ((hr.active other hother).2 hin') hnew
    · obtain ⟨rfl, ht⟩ := hbody _ _ _ _ _ _ (hr.mark hother) hinner hinner'
      exact ⟨rfl, hr.leadsTo hs hs' ht.definitions⟩

end Writer

variable {store : Store σ}

theorem writtenParts_plug {holes : List RuleId} {v g : Grammar σ} (hplain : g.IsPlain) :
    (g.plug holes v).writtenParts = g.writtenParts.map (·.plug holes v) := by
  cases g with
  | reference _ _ | define _ _ | handle _ | fixed _ _ _ => exact hplain.elim
  | all _ _ parts | any _ _ parts =>
      rw [plug, writtenParts, writtenParts, plugParts_eq_map, List.map_map, List.map_map]
      rfl
  | _ => rfl

theorem eq_handle_of_plug {holes : List RuleId} {v g : Grammar σ} {slot : Slot}
    (h : g.plug holes v = .handle slot) (hv : v ≠ .handle slot) : g = .handle slot := by
  cases g with
  | handle other => exact h
  | fixed hold name rule =>
      by_cases hmem : rule ∈ holes
      · rw [plug_fixed_of_mem hmem] at h
        exact absurd h hv
      · rw [plug_fixed_of_not_mem hmem] at h
        cases h
  | _ => cases h

/-- Fillers of the same rank make no difference to the rank. -/
theorem rankWithin_plug {holes : List RuleId} {u v : Grammar σ}
    (h : ∀ n, u.rankWithin store n = v.rankWithin store n) (n : Nat) (g : Grammar σ) :
    (g.plug holes u).rankWithin store n = (g.plug holes v).rankWithin store n := by
  induction n generalizing g with
  | zero => rfl
  | succ n ih =>
      cases g with
      | discard g | attempt g | attemptPure g | strict _ g | trace _ g | token g | shared g =>
          exact ih g
      | all _ _ parts | any _ _ parts =>
          rcases parts with _ | ⟨⟨kind, q⟩, _ | ⟨part, parts⟩⟩
          · rfl
          · exact ih q
          · rfl
      | fixed hold name rule =>
          by_cases hmem : rule ∈ holes
          · rw [plug_fixed_of_mem hmem, plug_fixed_of_mem hmem, h]
          · rw [plug_fixed_of_not_mem hmem, plug_fixed_of_not_mem hmem]
      | _ => rfl

/-- Fillers that are written as the same name make no difference to the text. -/
theorem alike_writeWithin_plug {holes : List RuleId} {u v : Grammar σ} {name : String}
    (hrank : ∀ n, u.rankWithin store n = v.rankWithin store n)
    (hu : ∀ n r text s, u.writeWithin store n r = some (text, s) → text = name)
    (hv : ∀ n r text s, v.writeWithin store n r = some (text, s) → text = name) (n m : Nat)
    (g : Grammar σ) (active : List Slot) :
    Writer.Alike active active ((g.plug holes u).writeWithin store n)
      ((g.plug holes v).writeWithin store m) := by
  induction n generalizing m g active with
  | zero =>
      intro r text s r' text' s' _ _ h
      cases h
  | succ n ih =>
      cases m with
      | zero =>
          intro r text s r' text' s' _ _ _ h'
          cases h'
      | succ m =>
          cases g with
          | reference other q =>
              exact Writer.alike_of_name (leads_writeWithin (n + 1) (.reference other _))
                (leads_writeWithin (m + 1) (.reference other _))
                (fun _ _ _ h => (Writer.eq_of_reference h).1)
                (fun _ _ _ h => (Writer.eq_of_reference h).1)
          | define other q =>
              exact Writer.alike_of_name (leads_writeWithin (n + 1) (.define other _))
                (leads_writeWithin (m + 1) (.define other _))
                (fun _ _ _ h => (Writer.eq_of_define h).1)
                (fun _ _ _ h => (Writer.eq_of_define h).1)
          | handle slot => exact alike_writeWithin (n + 1) (m + 1) (.handle slot) fun _ _ => .rfl
          | fixed hold other rule =>
              by_cases hmem : rule ∈ holes
              · rw [plug_fixed_of_mem hmem, plug_fixed_of_mem hmem]
                exact Writer.alike_of_name (leads_writeWithin (n + 1) u)
                  (leads_writeWithin (m + 1) v) (hu (n + 1)) (hv (m + 1))
              · rw [plug_fixed_of_not_mem hmem, plug_fixed_of_not_mem hmem]
                exact alike_writeWithin (n + 1) (m + 1) (.fixed hold other rule) fun _ _ => .rfl
          | _ =>
              have hcongruence := Writer.congruence_alike σ active active
              refine related_writeWithin_plug hcongruence trivial ?_ ?_
              · exact fun q _ => ih m q active
              · intro q _
                rw [rankWithin_plug hrank]
                exact alikeRanks_rankWithin n m _ fun _ _ => .rfl

/-- An unmarked handle is written as its rule. -/
theorem eq_of_writeWithin_handle {n : Nat} {slot : Slot} {body : Grammar σ} {r s : Rendering}
    {text : String} (hslot : store.handle? slot = some body) (hnew : slot ∉ r.active)
    (h : (handle slot).writeWithin store n r = some (text, s)) :
    ∃ k < n, ∃ t, body.writeWithin store k { r with active := slot :: r.active } = some (text, t) ∧
      s.definitions = t.definitions := by
  cases n with
  | zero => cases h
  | succ n =>
      rw [writeWithin, hslot] at h
      obtain ⟨hin, -⟩ | ⟨-, t, hinner, rfl⟩ := Writer.eq_of_handle h
      · exact absurd hin hnew
      · exact ⟨n, Nat.lt_succ_self n, t, hinner, rfl⟩

section Body

open Rendering Writer

variable {name : String} {slot : Slot} {rule : RuleId} {holes : List RuleId} {body : Grammar σ}

/-- Of a plain grammar only the parts have to be compared: none of their ranks depends on the mark,
which they do not come upon. -/
theorem preserving_writeWithin_plain {n m : Nat} {gaps : List RuleId} {g : Grammar σ}
    (hplain : g.IsPlain)
    (hcalls : store.Throughout (store.CallsByName name slot)
      (g.plug gaps (.reference name (.handle slot))))
    (hparts : ∀ q ∈ g.writtenParts,
      store.Throughout (store.CallsByName name slot)
        (q.plug gaps (.reference name (.handle slot))) →
      q.plug gaps (.reference name (.handle slot)) ≠ .handle slot →
      Preserving (Abreast name slot)
        ((q.plug gaps (.fixed .borrower name rule)).writeWithin store n)
        ((q.plug gaps (.reference name (.handle slot))).writeWithin store m)) :
    Preserving (Abreast name slot)
      ((g.plug gaps (.fixed .borrower name rule)).writeWithin store (n + 1))
      ((g.plug gaps (.reference name (.handle slot))).writeWithin store (m + 1)) := by
  have hpart (q : Grammar σ) (hq : q ∈ g.writtenParts) :=
    hcalls.callsByName_writtenPart ((writtenParts_plug hplain).symm ▸ List.mem_map_of_mem hq)
  refine related_writeWithin_plug (congruence_preserving σ _) hplain ?_ ?_
  · exact fun q hq => hparts q hq (hpart q hq).1 (hpart q hq).2
  · intro q hq r r' hr
    have hrank (n : Nat) : (fixed .borrower name rule).rankWithin store n =
        (reference name (.handle slot)).rankWithin store n := by
      cases n <;> rfl
    rw [rankWithin_plug hrank]
    refine alikeRanks_rankWithin n m _ fun other hother => hr.active other ?_
    rintro rfl
    exact (hpart q hq).1.not_exposes (hpart q hq).2 hother

/-- Where the name refers to the handle on both sides, the rule of the handle is written with the
mark on both sides. -/
theorem preserving_reference_handle (hslot : store.handle? slot = some body) {n m : Nat}
    (hbody : ∀ k < n, ∀ l,
      Preserving (Abreast name slot) (body.writeWithin store k) (body.writeWithin store l)) :
    Preserving (Abreast name slot) (Writer.reference name ((handle slot).writeWithin store n))
      (Writer.reference name ((handle slot).writeWithin store m)) := by
  refine preserving_reference_of_new (leads_writeWithin n _) (leads_writeWithin m _) ?_
  intro d active active' text s text' s' hr hnew h h'
  obtain ⟨hunmarked, hunmarked'⟩ := hr.unmarked hnew
  obtain ⟨k, hk, t, hinner, hs⟩ := eq_of_writeWithin_handle hslot hunmarked h
  obtain ⟨l, -, t', hinner', hs'⟩ := eq_of_writeWithin_handle hslot hunmarked' h'
  have hentered := hr.enter (.inr rfl) (.inr rfl)
  obtain ⟨rfl, ht⟩ := hbody k hk l _ _ _ _ _ _ hentered hinner hinner'
  exact ⟨rfl, by rw [hs, hs', ht.definitions]⟩

/-- Where the name is that of the fixed point on one side, the mark is made on the other one. -/
theorem preserving_fixed_reference (hbuilt : store.BuiltBothWays name slot rule holes body)
    {n m : Nat} (hbody : ∀ l, Preserving (Abreast name slot)
      ((body.plug holes (.fixed .borrower name rule)).writeWithin store n)
      ((body.plug holes (.reference name (.handle slot))).writeWithin store l)) :
    Preserving (Abreast name slot)
      ((fixed .borrower name rule).writeWithin store (n + 1))
      ((reference name (.handle slot)).writeWithin store (m + 1)) := by
  rw [writeWithin, writeWithin, hbuilt.fixed]
  refine preserving_reference_of_new (leads_writeWithin n _) (leads_writeWithin m _) ?_
  intro d active active' text s text' s' hr hnew h h'
  obtain ⟨-, hunmarked'⟩ := hr.unmarked hnew
  obtain ⟨l, -, t', hinner', hs'⟩ := eq_of_writeWithin_handle hbuilt.handle hunmarked' h'
  obtain ⟨rfl, ht⟩ := hbody l _ _ _ _ _ _ (hr.enter (.inl rfl) (.inr rfl)) h hinner'
  exact ⟨rfl, by rw [hs', ht.definitions]⟩

/-- A grammar with gaps for the rule writes the same and enters the same definitions whichever of
the two ways of referring to the rule they are filled with. -/
theorem preserving_writeWithin (hbuilt : store.BuiltBothWays name slot rule holes body) (n m : Nat)
    (gaps : List RuleId) (g : Grammar σ)
    (hcalls : store.Throughout (store.CallsByName name slot)
      (g.plug gaps (.reference name (.handle slot))))
    (hg : g.plug gaps (.reference name (.handle slot)) ≠ .handle slot) :
    Preserving (Abreast name slot)
      ((g.plug gaps (.fixed .borrower name rule)).writeWithin store n)
      ((g.plug gaps (.reference name (.handle slot))).writeWithin store m) := by
  induction n using Nat.strong_induction_on generalizing m gaps g with
  | _ n ih =>
  rcases n with _ | n
  · intro r text s r' text' s' _ h
    cases h
  rcases m with _ | m
  · intro r text s r' text' s' _ _ h'
    cases h'
  have hsame (k l : Nat) (hk : k < n + 1) {q : Grammar σ}
      (hq : store.Throughout (store.CallsByName name slot) q ∧ q ≠ .handle slot) :
      Preserving (Abreast name slot) (q.writeWithin store k) (q.writeWithin store l) := by
    have hplugged := ih k hk l [] q
    rw [plug_nil, plug_nil] at hplugged
    exact hplugged hq.1 hq.2
  have hrule (hname : store.Throughout (store.CallsByName name slot)
      (.reference name (.handle slot))) :
      store.Throughout (store.CallsByName name slot)
          (body.plug holes (.reference name (.handle slot))) ∧
        body.plug holes (.reference name (.handle slot)) ≠ .handle slot :=
    (hname.component (.head _)).callsByName_component (by simp) (Option.mem_toList.2 hbuilt.handle)
  cases g with
  | reference other q =>
      by_cases hq : q.plug gaps (.reference name (.handle slot)) = .handle slot
      · obtain rfl := eq_handle_of_plug hq (by simp)
        obtain ⟨rfl, -⟩ := reference.inj (hcalls.self (.head _))
        exact preserving_reference_handle hbuilt.handle
          fun k hk l => hsame k l (hk.trans n.lt_succ_self) (hrule hcalls)
      · exact preserving_reference (leads_writeWithin n _) (leads_writeWithin m _)
          (ih n n.lt_succ_self m gaps q (hcalls.component (.head _)) hq)
  | define other q =>
      have hq := hcalls.callsByName_component (by simp [plug]) (.head _)
      exact preserving_define (leads_writeWithin n _) (leads_writeWithin m _)
        (ih n n.lt_succ_self m gaps q hq.1 hq.2)
  | handle other =>
      have hother : other ≠ slot := by
        rintro rfl
        exact hg rfl
      rw [plug, plug, writeWithin, writeWithin]
      cases hfound : store.handle? other with
      | none => exact (congruence_preserving σ (Abreast name slot)).text "?"
      | some q =>
          refine preserving_handle hother (leads_writeWithin n q) (leads_writeWithin m q) ?_
          exact hsame n m n.lt_succ_self
            (hcalls.callsByName_component (by simp [plug]) (Option.mem_toList.2 hfound))
  | fixed hold other number =>
      by_cases hmem : number ∈ gaps
      · rw [plug_fixed_of_mem hmem, plug_fixed_of_mem hmem]
        rw [plug_fixed_of_mem hmem] at hcalls
        exact preserving_fixed_reference hbuilt fun l =>
          ih n n.lt_succ_self l holes body (hrule hcalls).1 (hrule hcalls).2
      · rw [plug_fixed_of_not_mem hmem, plug_fixed_of_not_mem hmem]
        rw [plug_fixed_of_not_mem hmem] at hcalls
        rw [writeWithin, writeWithin]
        cases hfound : store.fixed? number with
        | none =>
            exact preserving_reference (leads_text "?") (leads_text "?")
              ((congruence_preserving σ (Abreast name slot)).text "?")
        | some q =>
            have hq := hcalls.callsByName_component (by simp) (Option.mem_toList.2 hfound)
            exact preserving_reference (leads_writeWithin n q) (leads_writeWithin m q)
              (hsame n m n.lt_succ_self hq)
  | _ => exact preserving_writeWithin_plain trivial hcalls fun q _ => ih n n.lt_succ_self m gaps q

end Body

end Grammar

namespace Store

variable {store : Store σ} {g g' : Grammar σ}

/-- Two grammars that are written the same, on their own and with the definitions they come upon. -/
structure ListsAlike (store : Store σ) (g g' : Grammar σ) : Prop where
  describe : ∀ definitions, store.describe g definitions = store.describe g' definitions
  ebnf : store.ebnf g = store.ebnf g'

namespace ListsAlike

theorem refl (store : Store σ) (g : Grammar σ) : store.ListsAlike g g :=
  ⟨fun _ => rfl, rfl⟩

theorem symm (h : store.ListsAlike g g') : store.ListsAlike g' g :=
  ⟨fun definitions => (h.describe definitions).symm, h.ebnf.symm⟩

theorem trans {g'' : Grammar σ} (h : store.ListsAlike g g') (h' : store.ListsAlike g' g'') :
    store.ListsAlike g g'' :=
  ⟨fun definitions => (h.describe definitions).trans (h'.describe definitions),
    h.ebnf.trans h'.ebnf⟩

theorem of_write (h : ∀ definitions, ∃ text s s',
    store.write g (.fresh definitions) = some (text, s) ∧
      store.write g' (.fresh definitions) = some (text, s') ∧ s.definitions = s'.definitions) :
    store.ListsAlike g g' := by
  constructor
  · intro definitions
    obtain ⟨text, s, s', hs, hs', hdefinitions⟩ := h (some definitions)
    rw [Store.describe, Store.describe, hs, hs']
    dsimp only [bind, Option.bind]
    rw [hdefinitions]
  · obtain ⟨text, s, s', hs, hs', -⟩ := h none
    rw [Store.ebnf, Store.ebnf, hs, hs']
    rfl

end ListsAlike

/-- Two grammars whose texts are the same, whatever definitions there are. -/
structure TextsAlike (store : Store σ) (g g' : Grammar σ) : Prop where
  describe : ∀ definitions,
    (store.describe g definitions).map Prod.fst = (store.describe g' definitions).map Prod.fst
  ebnf : store.ebnf g = store.ebnf g'

theorem map_fst_describe {definitions : Definitions} {text : String} {r : Rendering}
    (h : store.write g (.fresh (some definitions)) = some (text, r)) :
    (store.describe g definitions).map Prod.fst = some text := by
  have hcollects := (Grammar.leads_writeWithin _ g _ _ _ h).collects
  obtain ⟨definitions', hdefinitions⟩ := Option.isSome_iff_exists.1 hcollects
  rw [describe, h]
  simp [hdefinitions]

theorem TextsAlike.of_alike (h : ∀ n m, Grammar.Writer.Alike [] [] (g.writeWithin store n)
    (g'.writeWithin store m)) : store.TextsAlike g g' := by
  have hwrite (definitions : Option Definitions) : ∃ text s s',
      store.write g (.fresh definitions) = some (text, s) ∧
        store.write g' (.fresh definitions) = some (text, s') := by
    obtain ⟨text, s, hs, -⟩ := store.exists_write g (.fresh definitions)
    obtain ⟨text', s', hs', -⟩ := store.exists_write g' (.fresh definitions)
    obtain ⟨rfl, -⟩ := h _ _ _ _ _ _ _ _ rfl rfl hs hs'
    exact ⟨text, s, s', hs, hs'⟩
  constructor
  · intro definitions
    obtain ⟨text, s, s', hs, hs'⟩ := hwrite (some definitions)
    rw [map_fst_describe hs, map_fst_describe hs']
  · obtain ⟨text, s, s', hs, hs'⟩ := hwrite none
    rw [Store.ebnf, Store.ebnf, hs, hs']
    rfl

section Body

variable {name : String} {slot : Slot} {rule : RuleId} {holes : List RuleId} {body : Grammar σ}

theorem listsAlike_plug (hbuilt : store.BuiltBothWays name slot rule holes body)
    (gaps : List RuleId) (g : Grammar σ)
    (hcalls : store.Throughout (store.CallsByName name slot)
      (g.plug gaps (.reference name (.handle slot)))) :
    store.ListsAlike (g.plug gaps (.fixed .borrower name rule))
      (g.plug gaps (.reference name (.handle slot))) := by
  by_cases hg : g.plug gaps (.reference name (.handle slot)) = .handle slot
  · obtain rfl := Grammar.eq_handle_of_plug hg nofun
    exact .refl store _
  · refine .of_write fun definitions => ?_
    obtain ⟨text, s, hs, -⟩ :=
      store.exists_write (g.plug gaps (.fixed .borrower name rule)) (.fresh definitions)
    obtain ⟨text', s', hs', -⟩ :=
      store.exists_write (g.plug gaps (.reference name (.handle slot))) (.fresh definitions)
    obtain ⟨rfl, habreast⟩ := Grammar.preserving_writeWithin hbuilt _ _ gaps g hcalls hg
      _ _ _ _ _ _ (.fresh name slot definitions) hs hs'
    exact ⟨text, s, s', hs, hs', habreast.definitions⟩

/-- Whether a fixed point is owned does not show. -/
theorem listsAlike_hold (store : Store σ) (hold hold' : Hold) (name : String) (rule : RuleId) :
    store.ListsAlike (.fixed hold name rule) (.fixed hold' name rule) := by
  refine .of_write fun definitions => ?_
  obtain ⟨text, s, hs, -⟩ := store.exists_write (.fixed hold name rule) (.fresh definitions)
  refine ⟨text, s, s, hs, ?_, rfl⟩
  rw [← hs]
  rfl

end Body

end Store

end ParserAlgebra
