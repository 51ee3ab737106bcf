import Mathlib.Logic.Relation
import ParserAlgebra.Proofs.Involvement
import ParserAlgebra.Session

/-!
# Renderings take back their marks

Finding the rank of a grammar and writing it come to an end over every store, whatever is marked and
whatever has been defined before, and leave the marks as they found them. Allowing more depth than
`Store.depthBound` does not change what they come to.

Marks are kept with the slots from one rendering to the next. A session begins without marks, and
what it does besides rendering sets none, so no rendering finds a mark that an earlier one has left.
-/

namespace ParserAlgebra

variable {σ : Type}

namespace Grammar

namespace Writer

/-- Whatever the first writer writes, the second one writes as well. -/
def ContinuedBy (w w' : Writer) : Prop :=
  ∀ r x, w r = some x → w' r = some x

/-- Whatever rank the first way finds, the second one finds as well. -/
def Ranking.ContinuedBy (rank rank' : Ranking) : Prop :=
  ∀ active x, rank active = some x → rank' active = some x

theorem continuedBy_refl (w : Writer) : w.ContinuedBy w :=
  fun _ _ h => h

theorem continuedBy_reference {name : String} {body body' : Writer} (h : body.ContinuedBy body') :
    (reference name body).ContinuedBy (reference name body') := by
  intro r x hx
  unfold reference at hx ⊢
  cases hd : r.definitions with
  | none => simpa only [hd] using hx
  | some d =>
      simp only [hd] at hx ⊢
      by_cases hname : d.contains name
      · rwa [if_pos hname] at hx ⊢
      · rw [if_neg hname] at hx ⊢
        obtain ⟨y, hy, hx⟩ := Option.bind_eq_some_iff.1 hx
        exact Option.bind_eq_some_iff.2 ⟨y, h _ y hy, hx⟩

theorem continuedBy_define {name : String} {body body' : Writer} (h : body.ContinuedBy body') :
    (define name body).ContinuedBy (define name body') := by
  intro r x hx
  unfold define at hx ⊢
  cases hd : r.definitions with
  | none => simpa only [hd] using hx
  | some d =>
      simp only [hd] at hx ⊢
      by_cases hname : d.contains name
      · rwa [if_pos hname] at hx ⊢
      · rw [if_neg hname] at hx ⊢
        obtain ⟨y, hy, hx⟩ := Option.bind_eq_some_iff.1 hx
        exact Option.bind_eq_some_iff.2 ⟨y, h r y hy, hx⟩

theorem continuedBy_handle {slot : Slot} {body body' : Writer} (h : body.ContinuedBy body') :
    (handle slot body).ContinuedBy (handle slot body') := by
  intro r x hx
  unfold handle at hx ⊢
  cases hmarked : Rendering.enter? r.active slot with
  | none => simpa only [hmarked] using hx
  | some marked =>
      simp only [hmarked] at hx ⊢
      obtain ⟨y, hy, hx⟩ := Option.bind_eq_some_iff.1 hx
      exact Option.bind_eq_some_iff.2 ⟨y, h _ y hy, hx⟩

theorem continuedBy_each {parts : List (Grammar σ)} {ws ws' : List Writer}
    (h : Each (fun (_ : List (Grammar σ)) => ContinuedBy) parts ws ws') {r : Rendering}
    {x : List String × Rendering} (hx : each ws r = some x) : each ws' r = some x := by
  induction h generalizing r x with
  | nil => exact hx
  | cons hw _ ih =>
      obtain ⟨y, hy, hx⟩ := Option.bind_eq_some_iff.1 hx
      obtain ⟨z, hz, hx⟩ := Option.bind_eq_some_iff.1 hx
      exact Option.bind_eq_some_iff.2
        ⟨y, hw r y hy, Option.bind_eq_some_iff.2 ⟨z, ih hz, hx⟩⟩

theorem congruence_continuedBy (σ : Type) :
    Congruence (fun (_ : List (Grammar σ)) => ContinuedBy) Ranking.ContinuedBy where
  text s := continuedBy_refl (text s)
  enclosed hrank hpart context := by
    intro r x hx
    obtain ⟨y, hy, hx⟩ := Option.bind_eq_some_iff.1 hx
    obtain ⟨z, hz, hx⟩ := Option.bind_eq_some_iff.1 hx
    exact Option.bind_eq_some_iff.2
      ⟨y, hrank _ y hy, Option.bind_eq_some_iff.2 ⟨z, hpart _ z hz, hx⟩⟩
  separated hws separator := by
    intro r x hx
    obtain ⟨y, hy, hx⟩ := Option.bind_eq_some_iff.1 hx
    exact Option.bind_eq_some_iff.2 ⟨y, continuedBy_each hws hy, hx⟩
  around hpart before after := by
    intro r x hx
    obtain ⟨y, hy, hx⟩ := Option.bind_eq_some_iff.1 hx
    exact Option.bind_eq_some_iff.2 ⟨y, hpart r y hy, hx⟩

end Writer

variable {store : Store σ}

theorem continuedBy_rankWithin {n m : Nat} (h : n ≤ m) (g : Grammar σ) :
    Writer.Ranking.ContinuedBy (g.rankWithin store n) (g.rankWithin store m) := by
  induction n generalizing m g with
  | zero => intro active x hx; cases hx
  | succ n ih =>
      obtain ⟨m, rfl⟩ := Nat.exists_eq_add_of_le' (Nat.succ_pos n |>.trans_le h)
      have hle : n ≤ m := Nat.le_of_succ_le_succ h
      intro active x hx
      cases g with
      | discard g | attempt g | attemptPure g | strict _ g | trace _ g | token g | shared g =>
          exact ih hle g active x hx
      | all _ _ parts | any _ _ parts =>
          rcases parts with _ | ⟨⟨kind, q⟩, _ | ⟨part, parts⟩⟩
          · exact hx
          · exact ih hle q active x hx
          · exact hx
      | handle slot =>
          rw [rankWithin] at hx ⊢
          cases hslot : store.handle? slot with
          | none => simpa only [hslot] using hx
          | some body =>
              cases hmarked : Rendering.enter? active slot with
              | none => simpa only [hslot, hmarked] using hx
              | some marked =>
                  simp only [hslot, hmarked] at hx ⊢
                  obtain ⟨y, hy, hx⟩ := Option.bind_eq_some_iff.1 hx
                  exact Option.bind_eq_some_iff.2 ⟨y, ih hle body marked y hy, hx⟩
      | _ => exact hx

theorem continuedBy_writeWithin {n m : Nat} (h : n ≤ m) (g : Grammar σ) :
    (g.writeWithin store n).ContinuedBy (g.writeWithin store m) := by
  induction n generalizing m g with
  | zero => intro r x hx; cases hx
  | succ n ih =>
      obtain ⟨m, rfl⟩ := Nat.exists_eq_add_of_le' (Nat.succ_pos n |>.trans_le h)
      have hle : n ≤ m := Nat.le_of_succ_le_succ h
      have hplain (hg : g.IsPlain) :
          (g.writeWithin store (n + 1)).ContinuedBy (g.writeWithin store (m + 1)) :=
        related_writeWithin (Writer.congruence_continuedBy σ) hg (fun q _ => ih hle q)
          (fun q _ => continuedBy_rankWithin hle q)
      cases g with
      | reference name body => exact Writer.continuedBy_reference (ih hle body)
      | define name body => exact Writer.continuedBy_define (ih hle body)
      | handle slot =>
          rw [writeWithin, writeWithin]
          cases store.handle? slot with
          | none => exact Writer.continuedBy_refl _
          | some body => exact Writer.continuedBy_handle (ih hle body)
      | fixed hold name rule =>
          rw [writeWithin, writeWithin]
          apply Writer.continuedBy_reference
          cases store.fixed? rule with
          | none => exact Writer.continuedBy_refl _
          | some body => exact ih hle body
      | _ => exact hplain trivial

end Grammar

namespace Store

/-- A rendering of a grammar over a store, from the marks before it to the marks after it. -/
inductive Renders (store : Store σ) (g : Grammar σ) : List Slot → List Slot → Prop
  | rank {own : Rank} {before after : List Slot} (h : store.rank g before = some (own, after)) :
      Renders store g before after
  | write {r r' : Rendering} {text : String} (h : store.write g r = some (text, r')) :
      Renders store g r.active r'.active

theorem Renders.marks_eq {store : Store σ} {g : Grammar σ} {before after : List Slot}
    (h : store.Renders g before after) : after = before := by
  cases h with
  | @rank own before after h => exact Grammar.keeps_rankWithin _ g before own after h
  | @write r r' text h => exact (Grammar.leads_writeWithin _ g r text r' h).active

end Store

/-- The grammar that a command asks about, or that it runs. -/
def Command.subject? : Command → Option (Kind × Blueprint)
  | .write kind g _ _ | .locate kind g _ _ _ _ _ _ | .parse kind g _ _ | .parseComplete kind g _ _
  | .run kind g _ _ _ _ => some (kind, g)
  | _ => none

namespace Session

/-- A session that performs a command renders a grammar over a store. It renders the grammar that
the command asks about. While it runs a grammar it renders those that it makes errors of and those
that it goes back from, which the grammar involves. Before a fixed point has its rule, the recursive
occurrence may be tried, and is rendered. -/
inductive Renders (s : Session) : Command → Store Journal → Grammar Journal → Prop
  | subject {command : Command} {kind : Kind} {blueprint : Blueprint} {store : Store Journal}
      {g q : Grammar Journal} (hsubject : command.subject? = some (kind, blueprint))
      (hbuild : (blueprint.build s.names kind).run s.store = .ok (g, store))
      (hq : store.Involves g q) : Renders s command store q
  | probe {name input : String} {kind : Kind} {blueprint : Blueprint} {rule : RuleId}
      {store : Store Journal} {q : Grammar Journal}
      (hannounce : s.store.announce = (rule, store))
      (hq : store.Involves (.fixed .borrower name rule) q) :
      Renders s (.fix name kind blueprint (some input)) store q

/-- A session with the marks that are set on its slots performs a command. The renderings that it
makes pass the marks on, one to the next; the marks of slots that are dropped are gone, and slots
are made without a mark. -/
inductive Marks : Session × List Slot → Session × List Slot → Prop
  | perform {verbosity : Verbosity} {s s' : Session} {command : Command} {answer : Answer}
      {records : List LogRecord} {before after : List Slot}
      (hperform : s.perform verbosity command = (s', answer, records))
      (hrenders : Relation.ReflTransGen (fun marks marks' => ∃ store g,
        s.Renders command store g ∧ store.Renders g marks marks') before after) :
      Marks (s, before)
        (s', after.filter fun slot => (s'.store.arenas.slots? slot.arena).isSome)

variable {s s' : Session × List Slot}

theorem Marks.subset (h : Marks s s') : s'.2 ⊆ s.2 := by
  obtain ⟨hperform, hrenders⟩ := h
  apply List.Subset.trans (List.filter_subset_self _)
  clear hperform
  induction hrenders with
  | refl => exact List.Subset.refl _
  | tail _ hrender ih =>
      obtain ⟨store, g, -, hrender⟩ := hrender
      exact hrender.marks_eq ▸ ih

theorem marks_subset (h : Relation.ReflTransGen Marks s s') : s'.2 ⊆ s.2 := by
  induction h with
  | refl => exact List.Subset.refl _
  | tail _ hstep ih => exact List.Subset.trans hstep.subset ih

end Session

namespace Store

/-- Renderings come to an end and take back their marks, whatever is marked and defined when they
begin. So no mark is set between the commands of a session. -/
theorem renderings_end_unmarked (store : Store σ) (g : Grammar σ) :
    (∀ active, ∃ own, ∀ n, store.depthBound g ≤ n →
      g.rankWithin store n active = some (own, active)) ∧
    (∀ r, ∃ text r', r'.active = r.active ∧
      r'.definitions.isSome = r.definitions.isSome ∧
      ∀ n, store.depthBound g ≤ n → g.writeWithin store n r = some (text, r')) ∧
    ∀ s marks, Relation.ReflTransGen Session.Marks (.initial, []) (s, marks) → marks = [] := by
  refine ⟨fun active => ?_, fun r => ?_, fun s marks hs => ?_⟩
  · obtain ⟨own, hown⟩ := store.exists_rank g active
    exact ⟨own, fun n hn => Grammar.continuedBy_rankWithin hn g active _ hown⟩
  · obtain ⟨text, r', hwritten, hleads⟩ := store.exists_write g r
    exact ⟨text, r', hleads.active, hleads.collects,
      fun n hn => Grammar.continuedBy_writeWithin hn g r _ hwritten⟩
  · exact List.eq_nil_of_subset_nil (Session.marks_subset hs)

end Store

end ParserAlgebra
