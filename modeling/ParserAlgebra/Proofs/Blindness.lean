import ParserAlgebra.Proofs.Discipline
import ParserAlgebra.Proofs.Lockstep
import ParserAlgebra.Proofs.Resemblance

/-!
# Runs that their slot does not steer

A grammar produces values of one kind, and a slot that it is run into holds a value of that kind, if
there is a slot at all. If no action lets what it finds in its slot decide anything but what it
leaves there, then neither does a run: whatever the slot, or without one, it takes the same input
and ends with the same verdict and the same state. The values of parts may well decide; they are
produced in slots that begin alike.
-/

namespace ParserAlgebra

variable {σ : Type}

/-- Values of the kind of the slot. -/
def Contents.ofKind : Contents where
  holds kind v := v.kind = kind
  default := Value.kind_default

/-- A slot for values of a kind: it holds one, or it is not there. -/
def Kind.Fits (kind : Kind) (slot : Option Value) : Prop :=
  ∀ v ∈ slot, v.kind = kind

/-- Two slots for values of a kind, which may have to be the same. -/
structure Kind.Slots (kind : Kind) (same : Prop) (slot slot' : Option Value) : Prop where
  fits : kind.Fits slot
  fits' : kind.Fits slot'
  eq_of_same : same → slot = slot'

namespace Kind

variable {kind : Kind} {same : Prop} {slot slot' : Option Value}

theorem slots_true (kind : Kind) : kind.Slots True = Contents.ofKind.Same kind := by
  funext slot slot'
  refine propext ⟨fun h => ⟨h.eq_of_same trivial, h.fits⟩, fun h => ?_⟩
  obtain ⟨rfl, hfits⟩ := h
  exact ⟨hfits, hfits, fun _ => rfl⟩

theorem Fits.kind_getD (h : kind.Fits slot) : (slot.getD kind.default).kind = kind := by
  cases slot with
  | none => exact Value.kind_default kind
  | some v => exact h v rfl

theorem Fits.map (h : kind.Fits slot) {f : Value → Value}
    (hf : ∀ v, v.kind = kind → (f v).kind = kind) : kind.Fits (slot.map f) := by
  intro w hw
  obtain ⟨v, hv, rfl⟩ := Option.map_eq_some_iff.1 hw
  exact hf v (h v hv)

theorem Fits.ite (h : kind.Fits slot) (p : Prop) [Decidable p] :
    kind.Fits (if p then slot else none) := by
  split
  · exact h
  · exact fun v hv => by cases hv

end Kind

@[simp] theorem Value.kind_pushText (text : String) (v : Value) :
    (v.pushText text).kind = v.kind := by
  cases v <;> rfl

theorem Kind.takesText_slots (kind : Kind) (same : Prop) :
    SlotRelation.TakesText (kind.Slots same) := by
  intro slot slot' text h
  have hpush (v : Value) (hv : v.kind = kind) : (v.pushText text).kind = kind := by
    rw [Value.kind_pushText, hv]
  exact ⟨h.fits.map hpush, h.fits'.map hpush, fun hsame => by rw [h.eq_of_same hsame]⟩

namespace Grammar

/-- A grammar whose action leaves values of the kind that it found. -/
def KeepsKind (g : Grammar σ) : Prop :=
  ∀ kind action args, g.Calls .ofKind kind action args →
    ∀ v state, v.kind = kind → (action args v state).slot.kind = kind

/-- A grammar with an action whose success, error text and effect on the state do not depend on the
value that it finds in its slot. -/
def IsBlind (g : Grammar σ) : Prop :=
  ∀ kind action args, g.Calls .ofKind kind action args →
    ∀ v w state, v.kind = kind → w.kind = kind → (action args v state).Alike (action args w state)

/-- A grammar that has no action of its own is blind. -/
theorem IsBlind.of_ne {g : Grammar σ} (hall : ∀ kind action parts, g ≠ .all kind action parts)
    (hany : ∀ kind action parts, g ≠ .any kind action parts) : g.IsBlind := by
  intro kind action args hcall
  cases hcall with
  | all hvalues => exact absurd rfl (hall _ _ _)
  | any hpart hvalue => exact absurd rfl (hany _ _ _)

theorem isBlind_all (kind : Kind) (action : Action σ)
    (h : ∀ args v w state, v.kind = kind → w.kind = kind →
      (action args v state).Alike (action args w state))
    (parts : List (Kind × Grammar σ)) : (all kind action parts).IsBlind := by
  intro _ _ args hcall
  cases hcall with
  | all hvalues => exact h _

theorem keepsKind_all (kind : Kind) (action : Action σ)
    (h : ∀ args v state, v.kind = kind → (action args v state).slot.kind = kind)
    (parts : List (Kind × Grammar σ)) : (all kind action parts).KeepsKind := by
  intro _ _ args hcall
  cases hcall with
  | all hvalues => exact h _

/-- The grammars that produce values of a kind, given the kinds of the rules. -/
inductive Produces (kinds : RuleName → Kind) : Kind → Grammar σ → Prop
  | accept (kind : Kind) (p : Predicate) : Produces kinds kind (.accept p)
  | expect (kind : Kind) (p : Predicate) : Produces kinds kind (.expect p)
  | literal (kind : Kind) (text : String) : Produces kinds kind (.literal text)
  | pattern (kind : Kind) (source : String) (matcher : Regex.Matcher) :
      Produces kinds kind (.pattern source matcher)
  | succeed (kind : Kind) : Produces kinds kind .succeed
  | fail (kind : Kind) : Produces kinds kind .fail
  | sequence {kind : Kind} {a b : Grammar σ} (ha : Produces kinds kind a)
      (hb : Produces kinds kind b) : Produces kinds kind (.sequence a b)
  | choice {kind : Kind} {a b : Grammar σ} (ha : Produces kinds kind a)
      (hb : Produces kinds kind b) : Produces kinds kind (.choice a b)
  | repetition {kind : Kind} (atLeast : Nat) {item : Grammar σ}
      (hitem : Produces kinds kind item) : Produces kinds kind (.repetition atLeast item)
  | option {kind : Kind} {item : Grammar σ} (hitem : Produces kinds kind item) :
      Produces kinds kind (.option item)
  | sepBy {kind kind' : Kind} {item separator : Grammar σ} (hitem : Produces kinds kind item)
      (hseparator : Produces kinds kind' separator) : Produces kinds kind (.sepBy item separator)
  | discard (kind : Kind) {kind' : Kind} {item : Grammar σ} (hitem : Produces kinds kind' item) :
      Produces kinds kind (.discard item)
  | except {kind : Kind} {item : Grammar σ} (hitem : Produces kinds kind item)
      (forbidden : Value) : Produces kinds kind (.except kind item forbidden)
  | attempt {kind : Kind} {item : Grammar σ} (hitem : Produces kinds kind item) :
      Produces kinds kind (.attempt item)
  | attemptPure {kind : Kind} {item : Grammar σ} (hitem : Produces kinds kind item) :
      Produces kinds kind (.attemptPure item)
  | strict {kind : Kind} (message : String) {item : Grammar σ}
      (hitem : Produces kinds kind item) : Produces kinds kind (.strict message item)
  | trace {kind : Kind} (label : String) {item : Grammar σ}
      (hitem : Produces kinds kind item) : Produces kinds kind (.trace label item)
  | token {kind : Kind} {item : Grammar σ} (hitem : Produces kinds kind item) :
      Produces kinds kind (.token item)
  | shared {kind : Kind} {item : Grammar σ} (hitem : Produces kinds kind item) :
      Produces kinds kind (.shared item)
  | reference {kind : Kind} (name : String) {item : Grammar σ}
      (hitem : Produces kinds kind item) : Produces kinds kind (.reference name item)
  | define {kind : Kind} (name : String) {item : Grammar σ}
      (hitem : Produces kinds kind item) : Produces kinds kind (.define name item)
  | rename {kind : Kind} (name : String) (rank : Rank) {item : Grammar σ}
      (hitem : Produces kinds kind item) : Produces kinds kind (.rename name rank item)
  | all {kind : Kind} {action : Action σ} {parts : List (Kind × Grammar σ)}
      (hparts : ∀ part ∈ parts, Produces kinds part.1 part.2)
      (haction : (all kind action parts).KeepsKind) :
      Produces kinds kind (.all kind action parts)
  | any {kind : Kind} {action : Action σ} {parts : List (Kind × Grammar σ)}
      (hparts : ∀ part ∈ parts, Produces kinds part.1 part.2)
      (haction : (any kind action parts).KeepsKind) :
      Produces kinds kind (.any kind action parts)
  | handle (slot : Slot) : Produces kinds (kinds (.slot slot)) (.handle slot)
  | fixed (hold : Hold) (name : String) (rule : RuleId) :
      Produces kinds (kinds (.fixed rule)) (.fixed hold name rule)

end Grammar

/-- Each rule of a store produces values of the kind that is given for it. -/
def Store.WellKinded (store : Store σ) (kinds : RuleName → Kind) : Prop :=
  ∀ name g, store.body? name = some g → Grammar.Produces kinds (kinds name) g

/-- Judges grammars by the kind of what they produce. Slots of that kind are kept as such; they have
to be the same unless the grammar is blind. -/
def Store.judgeByKind (store : Store σ) (kinds : RuleName → Kind) : Judgement σ := fun S g g' =>
  g = g' ∧ ∃ kind same, S = kind.Slots same ∧ Grammar.Produces kinds kind g ∧
    (same ∨ store.Throughout Grammar.IsBlind g)

/-- Outcomes that may differ in what is left in the slot. -/
structure Outcome.SameButSlot (o p : Outcome σ) : Prop where
  verdict : o.verdict = p.verdict
  cursor : o.config.cursor = p.config.cursor
  state : o.config.state = p.config.state

theorem Outcome.SameButSlot.of_identity {S : SlotRelation} {o p : Outcome σ}
    (h : Correspondence.identity.Outcomes S o p) : o.SameButSlot p :=
  ⟨(h.verdict.imp fun _ _ he => he.eq).eq, h.config.cursor, h.config.state⟩

namespace Environment

open Correspondence

variable {env : Environment σ} {kinds : RuleName → Kind} {kind : Kind} {same : Prop}
  {g : Grammar σ}

theorem respects_of_keepsKind {action : Action σ} {args : Arguments} (hkeeps : g.KeepsKind)
    (hblind : same ∨ g.IsBlind) (hcall : g.Calls .ofKind kind action args) :
    action.Respects (kind.Slots same) kind args := by
  intro slot slot' state h effect effect'
  have hkind (slot : Option Value) (hslot : kind.Fits slot) :
      (action args (slot.getD kind.default) state).slot.kind = kind :=
    hkeeps kind action args hcall _ state hslot.kind_getD
  constructor
  · rcases hblind with hsame | hblind
    · have heq := h.eq_of_same hsame
      subst heq
      exact ⟨rfl, rfl⟩
    · exact hblind kind action args hcall _ _ state h.fits.kind_getD h.fits'.kind_getD
  · refine ⟨h.fits.map fun _ _ => hkind slot h.fits, h.fits'.map fun _ _ => hkind slot' h.fits',
      fun hsame => ?_⟩
    have heq := h.eq_of_same hsame
    subst heq
    rfl

/-- Two runs, from slots that are the same or of a grammar that is blind. The values of parts are
the same in either case. -/
theorem inStep_of_produces (hstore : env.store.WellKinded kinds) (n : Nat) (same : Prop)
    (hg : Grammar.Produces kinds kind g)
    (hblind : same ∨ env.store.Throughout Grammar.IsBlind g) :
    Correspondence.identity.InStep (kind.Slots same) (env.run n g) (env.run n g) := by
  have hjudged : env.store.judgeByKind kinds (kind.Slots same) g g :=
    ⟨rfl, kind, same, rfl, hg, hblind⟩
  refine inStep_run (H := .ofKind) ?_ ?_ n hjudged
  · rintro _ g _ ⟨rfl, -⟩
    exact .refl _ env g
  clear hg hblind hjudged
  rintro _ g _ ⟨rfl, kind, same, rfl, hg, hblind⟩
  by_cases hreads : g.Reads
  · refine .inl (inStep_of_reads faithful_sameCursor (kind.takesText_slots same) hreads ?_)
    rintro _ _ _ c _ rfl
    rfl
  refine .inr ?_
  have hpart (q : Grammar σ) (hq : q ∈ env.store.components g)
      (hkind : Grammar.Produces kinds kind q) :
      env.store.judgeByKind kinds (kind.Slots same) q q :=
    ⟨rfl, kind, same, rfl, hkind, hblind.imp_right (·.component hq)⟩
  -- What is run into a slot of its own begins alike in both runs, blind or not.
  have hfresh {kind : Kind} {q : Grammar σ} (hkind : Grammar.Produces kinds kind q) :
      env.store.judgeByKind kinds (Contents.ofKind.Same kind) q q :=
    ⟨rfl, kind, True, kind.slots_true.symm, hkind, .inl trivial⟩
  have hparts {parts : List (Kind × Grammar σ)}
      (h : ∀ part ∈ parts, Grammar.Produces kinds part.1 part.2) :
      List.Forall₂ ((env.store.judgeByKind kinds).Parts .ofKind) parts parts :=
    List.forall₂_same.2 fun part hpart => ⟨rfl, hfresh (h part hpart)⟩
  have hrule {r : Option (Grammar σ)} (hr : r.toList = env.store.components g)
      (hkind : ∀ q, r = some q → Grammar.Produces kinds kind q) :
      Option.Rel (env.store.judgeByKind kinds (kind.Slots same)) r r := by
    cases r with
    | some q => exact .some (hpart q (hr ▸ List.mem_cons_self) (hkind q rfl))
    | none => exact .none
  cases hg with
  | accept | expect | literal | pattern => exact absurd trivial hreads
  | succeed => exact .succeed
  | fail => exact .fail
  | sequence ha hb => exact .sequence (hpart _ (.head _) ha) (hpart _ (.tail _ (.head _)) hb)
  | choice ha hb => exact .choice (hpart _ (.head _) ha) (hpart _ (.tail _ (.head _)) hb)
  | sepBy hitem hseparator => exact .sepBy (hpart _ (.head _) hitem) _ (hfresh hseparator)
  | discard _ hitem => exact .discard _ (hfresh hitem)
  | except hitem forbidden =>
      refine .except _ (hfresh hitem) forbidden fun slot slot' inner h hinner => ?_
      exact ⟨Kind.Fits.ite hinner _, Kind.Fits.ite hinner _, fun hsame => by
        rw [h.eq_of_same hsame]⟩
  | repetition atLeast hitem => exact .repetition atLeast (hpart _ (.head _) hitem)
  | option hitem => exact .option (hpart _ (.head _) hitem)
  | attempt hitem => exact .attempt (hpart _ (.head _) hitem)
  | attemptPure hitem => exact .attemptPure (hpart _ (.head _) hitem)
  | strict message hitem => exact .strict message (hpart _ (.head _) hitem)
  | trace label hitem => exact .trace label (hpart _ (.head _) hitem)
  | token hitem => exact .token (hpart _ (.head _) hitem)
  | shared hitem => exact .shared (hpart _ (.head _) hitem)
  | reference name hitem => exact .reference name (hpart _ (.head _) hitem)
  | define name hitem => exact .define name (hpart _ (.head _) hitem)
  | rename name rank hitem => exact .rename name rank (hpart _ (.head _) hitem)
  | all h haction =>
      exact .all _ _ (hparts h) fun args hcall =>
        respects_of_keepsKind haction (hblind.imp_right (·.self)) hcall
  | any h haction =>
      exact .any _ _ (hparts h) fun args hcall =>
        respects_of_keepsKind haction (hblind.imp_right (·.self)) hcall
  | handle slot => exact .handle (hrule rfl (hstore (.slot slot)))
  | fixed hold name rule => exact .fixed hold hold name (hrule rfl (hstore (.fixed rule)))

/-- One or more items, with the separators run into a slot of their own. -/
def sepByInto (env : Environment σ) (slot : Option Value) (n : Nat) (item separator : Grammar σ) :
    Step σ := fun c => do
  let first ← env.run n item c
  first.andThen <|
    env.iterate (.sepBy item separator)
      (fun c => do
        let o ← env.run n separator { c with slot }
        (o.withSlot c.slot).andThen (env.run n item))
      n 0

theorem run_sepBy (n : Nat) (item separator : Grammar σ) :
    env.run (n + 1) (.sepBy item separator) = env.sepByInto none n item separator := by
  funext c
  rw [run, runLevel, sepByInto]

/-- Neither the value in the slot nor whether there is a slot changes where a run of a blind grammar
ends, and with which verdict and state. In particular a grammar that is discarded, or that stands
between items, takes the same input and has the same effects as one that is run for its value. -/
theorem run_sameButSlot (hstore : env.store.WellKinded kinds)
    (hg : Grammar.Produces kinds kind g) (hblind : env.store.Throughout Grammar.IsBlind g)
    (n : Nat) {slot slot' : Option Value} (hslot : kind.Fits slot) (hslot' : kind.Fits slot') :
    (∀ cursor state, EndsAlike Outcome.SameButSlot (env.run n g ⟨cursor, slot, state⟩)
      (env.run n g ⟨cursor, slot', state⟩)) ∧
    (∀ c : Config σ, EndsAlike (fun o p => o.SameButSlot p ∧ o.config.slot = c.slot)
      (env.run (n + 1) (.discard g) c) (env.run n g { c with slot })) ∧
    ∀ item c, EndsAlike (fun o p => o.SameButSlot p ∧ o.config.slot = p.config.slot)
      (env.run (n + 1) (.sepBy item g) c) (env.sepByInto slot n item g c) := by
  have hnone : kind.Fits none := fun v hv => by cases hv
  have hrun (slot slot' : Option Value) (hslot : kind.Fits slot) (hslot' : kind.Fits slot')
      (cursor : Cursor) (state : σ) :=
    inStep_of_produces hstore n False hg (.inr hblind) ⟨cursor, slot, state⟩
      ⟨cursor, slot', state⟩ ⟨rfl, ⟨hslot, hslot', False.elim⟩, rfl⟩
  refine ⟨fun cursor state => ?_, fun c => ?_, fun item c => ?_⟩
  · exact (hrun slot slot' hslot hslot' cursor state).imp fun _ _ _ _ h => .of_identity h
  · rw [run, runLevel, ← bind_pure (env.run n g { c with slot })]
    refine (hrun none slot hnone hslot c.cursor c.state).bind fun o p _ _ h => ?_
    have hsame : o.SameButSlot p := .of_identity h
    exact .ok ⟨⟨hsame.verdict, hsame.cursor, hsame.state⟩, rfl⟩
  · have hitem : Correspondence.identity.InStep Eq (env.run n item) (env.run n item) := by
      intro c d h
      rw [h.eq]
      exact .of_eq fun o _ => .refl o
    -- The slots of the separators differ, and are dropped before an item is run.
    have hrounds : OrderlySteps .identity .lockstep n Eq
        (fun c : Config σ => do
          let o ← env.run n g { c with slot := none }
          (o.withSlot c.slot).andThen (env.run n item))
        (fun _ c => do
          let o ← env.run n g { c with slot }
          (o.withSlot c.slot).andThen (env.run n item)) := by
      refine ⟨fun c d h => ?_, env.orderly_separatedInto none n item g,
        fun _ => env.orderly_separatedInto slot n item g⟩
      have hseparator := inStep_of_produces hstore n False hg (.inr hblind) _ _
        (h.withSlots ⟨hnone, hslot, False.elim⟩)
      refine (Comparison.Follows.of_endsAlike hseparator).bind fun o p _ _ _ hop => ?_
      have hback : Correspondence.identity.Outcomes Eq (o.withSlot c.slot) (p.withSlot d.slot) :=
        hop.withSlots h.slot
      exact follows_andThen hback fun _ => .of_endsAlike (hitem _ _ hback.config)
    have hbound : Filter.Tendsto (fun _ : Nat => n) (pure n) (pure n) :=
      Filter.tendsto_pure_pure (fun _ => n) n
    have hwhole : Comparison.lockstep.Follows n (Correspondence.identity.Outcomes Eq)
        (env.sepByInto none n item g c) (fun _ => env.sepByInto slot n item g c) := by
      refine (Comparison.Follows.of_endsAlike (hitem c c (.refl c))).bind fun o p _ _ _ hop => ?_
      exact follows_andThen hop fun _ =>
        follows_iterate hrounds (.refl _ env _) hbound 0 _ _ hop.config
    rw [run_sepBy]
    exact (Comparison.Follows.lockstep_iff.1 hwhole).imp fun _ _ _ _ h =>
      ⟨.of_identity h, h.config.slot⟩

/-- The action fails for the third digit, after it has counted it. It puts digits behind what it
finds in its slot. -/
theorem run_sameButSlot_failing :
    let action : Action Nat := fun args v s =>
      ⟨.list (v :: args.values), s + 1, if s < 2 then none else some { cause := "three digits" }⟩
    let rule : Grammar Nat := .all .list action [(.text, .accept (.ofClass .digit))]
    let g : Grammar Nat := .manyOne (.handle ⟨0, 0⟩)
    let env : Environment Nat := ⟨⟨⟨[some [some (.rule rule)]]⟩, []⟩, .off⟩
    let kinds : RuleName → Kind := fun _ => .list
    let cursor : Cursor := .ofInput ['1', '2', '3']
    env.store.WellKinded kinds ∧ Grammar.Produces kinds .list g ∧
      env.store.Throughout Grammar.IsBlind g ∧ Kind.list.Fits none ∧
        Kind.list.Fits (some (.list [.integer 7])) ∧
          ∃ o p e, env.run 9 g ⟨cursor, none, 0⟩ = .ok o ∧
            env.run 9 g ⟨cursor, some (.list [.integer 7]), 0⟩ = .ok p ∧
              o.verdict = .failed e ∧ p.verdict = .failed e ∧ e.message = "three digits" ∧
                e.column = 3 ∧ p.config.state = 3 := by
  intro action rule g env kinds cursor
  have hstore : env.store.WellKinded kinds := by
    intro name body hbody
    have hmem : body ∈ env.store.allRules := by
      cases name with
      | slot slot => exact Store.mem_allRules_of_handle? hbody
      | fixed rule => exact Store.mem_allRules_of_fixed? hbody
    obtain rfl : body = rule := List.mem_singleton.1 hmem
    refine .all (by simp [Grammar.Produces.accept]) ?_
    exact Grammar.keepsKind_all .list action (fun _ _ _ _ => rfl) _
  have hg : Grammar.Produces kinds .list g := .repetition 1 (.handle ⟨0, 0⟩)
  have hblind : env.store.Throughout Grammar.IsBlind g := by
    refine Store.Throughout.of_closed
      [g, .handle ⟨0, 0⟩, rule, .accept (.ofClass .digit)] List.mem_cons_self ?_ ?_
    · have hslot : env.store.handle? ⟨0, 0⟩ = some rule := rfl
      simp [Store.components, Grammar.writtenParts, hslot, g, rule]
    · simp only [List.forall_mem_cons, List.not_mem_nil, false_implies, implies_true, and_true, g]
      exact ⟨.of_ne (by simp) (by simp), .of_ne (by simp) (by simp),
        Grammar.isBlind_all .list action (fun _ _ _ _ _ _ => ⟨rfl, rfl⟩) _,
        .of_ne (by simp) (by simp)⟩
  have hnone : Kind.list.Fits none := by simp [Kind.Fits]
  have hslot : Kind.list.Fits (some (.list [.integer 7])) := by simp [Kind.Fits, Value.kind]
  obtain ⟨o, e, ho, hverdict, hmessage, hcolumn, hstate⟩ :
      ∃ o e, env.run 9 g ⟨cursor, none, 0⟩ = .ok o ∧ o.verdict = .failed e ∧
        e.message = "three digits" ∧ e.column = 3 ∧ o.config.state = 3 :=
    ⟨_, _, rfl, rfl, rfl, rfl, rfl⟩
  obtain ⟨hruns, -⟩ := run_sameButSlot hstore hg hblind 9 hnone hslot
  obtain ⟨p, hp, hsame⟩ := (hruns cursor 0).exists_of_left ho
  exact ⟨hstore, hg, hblind, hnone, hslot, o, p, e, ho, hp, hverdict,
    hsame.verdict ▸ hverdict, hmessage, hcolumn, hsame.state ▸ hstate⟩

end Environment

end ParserAlgebra
