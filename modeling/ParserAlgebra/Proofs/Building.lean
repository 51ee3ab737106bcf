import ParserAlgebra.Proofs.Ownership

/-!
# Building grammars

Building a blueprint enters new rules into a store behind the ones that are there. The grammar that
comes out owns fixed points that have rules: those it was built with, and those that were settled on
the way, each when its body was there. Only then is there an owner of it.
-/

namespace ParserAlgebra

variable {α β γ : Type}

theorem Table.mem_values_of_get? {κ : Type} [DecidableEq κ] {t : Table κ α} {key : κ} {a : α}
    (h : t.get? key = some a) : a ∈ t.values := by
  obtain ⟨entry, hentry, rfl⟩ := Option.map_eq_some_iff.1 h
  exact List.mem_map_of_mem (List.mem_of_find?_eq_some hentry)

/-- A step of building that only adds to the store. What its result owns has rules, and so has all
that is owned by grammars in use and by other rules. -/
def Build.Adds (inUse : List (Grammar Journal)) (owned : α → List RuleId) (step : Build α) : Prop :=
  ∀ store a store', store.Sound inUse → step.run store = .ok (a, store') →
    store.GrowsTo store' ∧ store'.Sound inUse ∧
      ∀ rule ∈ owned a, (store'.fixed? rule).isSome

namespace Build.Adds

variable {inUse : List (Grammar Journal)} {owned : α → List RuleId} {owned' : β → List RuleId}
  {owned'' : γ → List RuleId} {step : Build α} {step' : Build β}

theorem exists_of_bind {f : α → Build β} {store store'' : Store Journal} {b : β}
    (h : (step >>= f).run store = .ok (b, store'')) :
    ∃ a store', step.run store = .ok (a, store') ∧ (f a).run store' = .ok (b, store'') := by
  rw [StateT.run_bind] at h
  cases hstep : step.run store with
  | error e =>
      rw [hstep] at h
      cases h
  | ok p =>
      rw [hstep] at h
      exact ⟨p.1, p.2, rfl, h⟩

theorem pure {a : α}
    (h : ∀ store : Store Journal, store.Sound inUse → ∀ rule ∈ owned a,
      (store.fixed? rule).isSome) :
    Adds inUse owned (pure a) := by
  intro store a' store' hsound hrun
  cases hrun
  exact ⟨.refl store, hsound, h store hsound⟩

theorem pure_of_owned_eq_nil {a : α} (h : owned a = []) : Adds inUse owned (Pure.pure a) := by
  refine .pure fun store _ rule hrule => ?_
  rw [h] at hrule
  cases hrule

theorem throw (e : BuildError) : Adds inUse owned (throw e : Build α) := by
  intro store a store' _ hrun
  cases hrun

theorem map (h : Adds inUse owned step) {f : α → β} (hf : ∀ a, owned' (f a) ⊆ owned a) :
    Adds inUse owned' (step >>= fun a => Pure.pure (f a)) := by
  intro store b store'' hsound hrun
  obtain ⟨a, store', hstep, hresult⟩ := exists_of_bind hrun
  cases hresult
  obtain ⟨hgrows, hsound', howned⟩ := h store a store'' hsound hstep
  exact ⟨hgrows, hsound', fun rule hrule => howned rule (hf a hrule)⟩

/-- What the first result owns keeps its rules while the second is built. -/
theorem map₂ (h : Adds inUse owned step) (h' : Adds inUse owned' step') {f : α → β → γ}
    (hf : ∀ a b, owned'' (f a b) ⊆ owned a ++ owned' b) :
    Adds inUse owned'' (step >>= fun a => step' >>= fun b => Pure.pure (f a b)) := by
  intro store c store''' hsound hrun
  obtain ⟨a, store', hstep, hrest⟩ := exists_of_bind hrun
  obtain ⟨b, store'', hstep', hresult⟩ := exists_of_bind hrest
  cases hresult
  obtain ⟨hgrows, hsound', howned⟩ := h store a store' hsound hstep
  obtain ⟨hgrows', hsound'', howned'⟩ := h' store' b store''' hsound' hstep'
  refine ⟨hgrows.trans hgrows', hsound'', fun rule hrule => ?_⟩
  rcases List.mem_append.1 (hf a b hrule) with hrule | hrule
  · exact hgrows'.isSome (howned rule hrule)
  · exact howned' rule hrule

end Build.Adds

namespace Blueprint

variable {inUse : List (Grammar Journal)}

theorem adds_lookup (t : Table KindedName α) (name : String) (kind : Kind) {owned : α → List RuleId}
    (h : ∀ a, t.get? (name, kind) = some a → ∀ store : Store Journal, store.Sound inUse →
      ∀ rule ∈ owned a, (store.fixed? rule).isSome) :
    Build.Adds inUse owned (lookup t name kind) := by
  unfold lookup
  split
  · rename_i a ha
    exact .pure (h a ha)
  · exact .throw _

/-- A name that does not own what it stands for. -/
theorem adds_lookup_weak (t : Table KindedName α) (name : String) (kind : Kind)
    {f : α → Grammar Journal} (hf : ∀ a, (f a).owned = []) :
    Build.Adds inUse Grammar.owned (lookup t name kind >>= fun a => pure (f a)) := by
  have hnothing : Build.Adds inUse (fun _ => []) (lookup t name kind) :=
    adds_lookup t name kind fun _ _ _ _ _ hrule => nomatch hrule
  refine hnothing.map fun a => ?_
  rw [hf a]
  exact List.Subset.refl _

/-- The rule is missing until the body is there, which therefore does not own it. -/
theorem adds_buildFixed (name : String) {body : RuleId → Build (Grammar Journal)}
    (hbody : ∀ rule, Build.Adds inUse Grammar.owned (body rule)) :
    Build.Adds inUse Grammar.owned (buildFixed name body) := by
  intro store g store' hsound hrun
  obtain ⟨rule, announced, hannounce, hrun⟩ := Build.Adds.exists_of_bind hrun
  cases hannounce
  obtain ⟨g', built, hbuilt, hrun⟩ := Build.Adds.exists_of_bind hrun
  obtain ⟨_, settled, hsettle, hrun⟩ := Build.Adds.exists_of_bind hrun
  cases hsettle
  cases hrun
  obtain ⟨hgrows, hsound', howned⟩ := hbody _ _ _ _ hsound.announce hbuilt
  obtain ⟨hgrows', hsound'', hfixed⟩ := Store.settle_of_growsTo_announced hgrows hsound' howned
  refine ⟨hgrows', hsound'', fun rule hrule => ?_⟩
  obtain rfl := List.mem_singleton.1 hrule
  exact Option.isSome_of_mem hfixed

mutual

/-- What a blueprint uses by name is in use, so everything that a grammar owns when it is built has
its rule. -/
theorem adds_build : (g : Blueprint) → ∀ (names : Names) (kind : Kind),
    names.bindings.values ⊆ inUse → Build.Adds inUse Grammar.owned (g.build names kind)
  | .accept _, _, _, _ | .expect _, _, _, _ | .literal _, _, _, _ | .succeed, _, _, _
  | .fail, _, _, _ | .firstToken, _, _, _ => .pure_of_owned_eq_nil rfl
  | .pattern source, _, _, _ => by
    rw [build]
    split
    · exact .pure_of_owned_eq_nil rfl
    · exact .throw _
  | .sequence a b, names, kind, h | .choice a b, names, kind, h =>
    (adds_build a names kind h).map₂ (adds_build b names kind h) fun _ _ => List.Subset.refl _
  | .sepBy item separator separatorKind, names, kind, h =>
    (adds_build item names kind h).map₂ (adds_build separator names separatorKind h)
      fun _ _ => List.Subset.refl _
  | .many g, names, kind, h | .manyOne g, names, kind, h | .option g, names, kind, h
  | .attempt g, names, kind, h | .attemptPure g, names, kind, h | .strict _ g, names, kind, h
  | .trace _ g, names, kind, h | .token g, names, kind, h | .shared g, names, kind, h
  | .reference _ g, names, kind, h | .define _ g, names, kind, h
  | .rename _ _ g, names, kind, h =>
    (adds_build g names kind h).map fun _ => List.Subset.refl _
  | .discard g itemKind, names, _, h =>
    (adds_build g names itemKind h).map fun _ => List.Subset.refl _
  | .except g forbidden, names, kind, h => by
    rw [build]
    cases forbidden.convert kind with
    | ok v => exact (adds_build g names kind h).map fun _ => List.Subset.refl _
    | error e =>
        intro store a store' _ hrun
        obtain ⟨g', built, -, hthrow⟩ := Build.Adds.exists_of_bind hrun
        cases hthrow
  | .all _ _ parts, names, _, h | .any _ _ parts, names, _, h =>
    (adds_buildParts parts names h).map fun _ => List.Subset.refl _
  | .fix name g, names, kind, h =>
    adds_buildFixed name fun rule => adds_build g (names.within (name, kind) rule) kind h
  | .recur name, names, kind, _ => adds_lookup_weak names.enclosing name kind fun _ => rfl
  | .handle name, names, kind, _ => adds_lookup_weak names.handles name kind fun _ => rfl
  | .leaked name, names, kind, _ => adds_lookup_weak names.leaks name kind fun _ => rfl
  | .use name, names, kind, h => by
    have hbound : Build.Adds inUse Grammar.owned (lookup names.bindings name kind) :=
      adds_lookup names.bindings name kind fun g hg store hsound =>
        hsound.used g (h (Table.mem_values_of_get? hg))
    exact hbound.map fun _ => List.Subset.refl _

theorem adds_buildParts : (parts : List (Kind × Blueprint)) → ∀ names : Names,
    names.bindings.values ⊆ inUse →
      Build.Adds inUse Grammar.owned.ownedBy (build.buildParts parts names)
  | [], _, _ => .pure_of_owned_eq_nil rfl
  | (kind, g) :: parts, names, h =>
    (adds_build g names kind h).map₂ (adds_buildParts parts names h) fun _ _ => List.Subset.refl _

end

end Blueprint

end ParserAlgebra
