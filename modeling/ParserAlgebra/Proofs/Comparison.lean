import Mathlib.Order.Filter.AtTopBot.Basic
import ParserAlgebra.Proofs.Ending

/-!
# Computations that end alike

Two computations end alike if their results are related or both stop in the same way. Where the
second one has a bound of its own, it may be compared under the bound of the first one, or under all
bounds that are large enough, and some stops may be let pass. `Comparison` says how it is done, and
`Comparison.Follows` that the second computation comes out as it has to.
-/

namespace ParserAlgebra

variable {α β α' β' : Type}

/-- Two computations that end alike: with results that are related, or at the same stop. -/
inductive EndsAlike (R : α → β → Prop) : Except Stop α → Except Stop β → Prop
  | ok {a : α} {b : β} (h : R a b) : EndsAlike R (.ok a) (.ok b)
  | stop (stop : Stop) : EndsAlike R (.error stop) (.error stop)

namespace EndsAlike

variable {R : α → β → Prop} {Q : α' → β' → Prop} {r : Except Stop α} {s : Except Stop β}

theorem of_eq {R : α → α → Prop} {r : Except Stop α} (h : ∀ a, r = .ok a → R a a) :
    EndsAlike R r r := by
  cases r with
  | ok a => exact .ok (h a rfl)
  | error e => exact .stop e

theorem bind {f : α → Except Stop α'} {g : β → Except Stop β'} (h : EndsAlike R r s)
    (hfg : ∀ a b, r = .ok a → s = .ok b → R a b → EndsAlike Q (f a) (g b)) :
    EndsAlike Q (r >>= f) (s >>= g) := by
  cases h with
  | ok h => exact hfg _ _ rfl rfl h
  | stop e => exact .stop e

theorem map {f : α → α'} {g : β → β'} (h : EndsAlike (fun a b => Q (f a) (g b)) r s) :
    EndsAlike Q (r.map f) (s.map g) := by
  cases h with
  | ok h => exact .ok h
  | stop e => exact .stop e

theorem imp {R' : α → β → Prop} (h : EndsAlike R r s)
    (hR : ∀ a b, r = .ok a → s = .ok b → R a b → R' a b) : EndsAlike R' r s := by
  cases h with
  | ok h => exact .ok (hR _ _ rfl rfl h)
  | stop e => exact .stop e

theorem exists_of_left (h : EndsAlike R r s) {a : α} (hr : r = .ok a) : ∃ b, s = .ok b ∧ R a b := by
  subst hr
  cases h with
  | ok h => exact ⟨_, rfl, h⟩

theorem exists_of_right (h : EndsAlike R r s) {b : β} (hs : s = .ok b) :
    ∃ a, r = .ok a ∧ R a b := by
  subst hs
  cases h with
  | ok h => exact ⟨_, rfl, h⟩

end EndsAlike

/-- How two computations are compared, each under a bound on its depth. -/
structure Comparison where
  /-- Where to look at the second computation, given the bound of the first one. -/
  bounds : Nat → Filter Nat
  /-- The stops of the first computation after which nothing is asked of the second one. -/
  excuses : Stop → Prop
  /-- The stops at which the second computation may end whatever the first one does. -/
  permits : Stop → Prop
  neBot : ∀ n, (bounds n).NeBot
  succ : ∀ n, bounds (n + 1) ≤ (bounds n).map (· + 1)
  zero : excuses .nestingLimit ∨ ∀ᶠ m in bounds 0, m = 0

attribute [instance] Comparison.neBot

namespace Comparison

open Filter

/-- Both computations under the same bound, to the same stop. -/
def lockstep : Comparison where
  bounds := pure
  excuses _ := False
  permits _ := False
  neBot _ := inferInstance
  succ n := (map_pure (· + 1) n).ge
  zero := .inr (eventually_pure.2 rfl)

/-- The second computation under every bound that is large enough, if the first one does not go too
deep. -/
def deeper : Comparison where
  bounds _ := atTop
  excuses stop := stop = .nestingLimit
  permits _ := False
  neBot _ := inferInstance
  succ _ := (map_add_atTop_eq_nat 1).ge
  zero := .inl rfl

/-- The same, if the first computation comes to a result; the second one may meet a fault. -/
def upToFaults : Comparison where
  bounds _ := atTop
  excuses _ := True
  permits stop := stop ≠ .nestingLimit
  neBot _ := inferInstance
  succ _ := (map_add_atTop_eq_nat 1).ge
  zero := .inl trivial

variable (V : Comparison)

/-- What the second computation has to come to, where it is looked at. -/
inductive Follows (n : Nat) (R : α → β → Prop) : Except Stop α → (Nat → Except Stop β) → Prop
  | excused {stop : Stop} {s : Nat → Except Stop β} (h : V.excuses stop) :
      Follows n R (.error stop) s
  | ends {r : Except Stop α} {s : Nat → Except Stop β} {t : Except Stop β}
      (hs : ∀ᶠ m in V.bounds n, s m = t) (h : EndsAlike R r t) : Follows n R r s
  | permitted {r : Except Stop α} {s : Nat → Except Stop β} {stop : Stop}
      (hs : ∀ᶠ m in V.bounds n, s m = .error stop) (h : V.permits stop) : Follows n R r s

/-- A bound that goes with a positive one is positive itself, where it is looked at. -/
theorem exists_count {n k : Nat} {count : Nat → Nat}
    (hcount : Tendsto count (V.bounds n) (V.bounds (k + 1))) :
    ∃ count', (∀ᶠ m in V.bounds n, count m = count' m + 1) ∧
      Tendsto count' (V.bounds n) (V.bounds k) := by
  have hsucc : Tendsto count (V.bounds n) ((V.bounds k).map (· + 1)) := hcount.mono_right (V.succ k)
  refine ⟨fun m => count m - 1, ?_, ?_⟩
  · have hpositive : ∀ᶠ l in (V.bounds k).map (· + 1), l = l - 1 + 1 :=
      eventually_map.2 (.of_forall fun _ => rfl)
    exact hsucc.eventually hpositive
  · have hpred : Tendsto (· - 1) ((V.bounds k).map (· + 1)) (V.bounds k) :=
      tendsto_map'_iff.2 tendsto_id
    exact hpred.comp hsucc

namespace Follows

variable {V} {n : Nat} {R : α → β → Prop} {Q : α' → β' → Prop} {r : Except Stop α}
  {s s' : Nat → Except Stop β}

theorem of_endsAlike {t : Except Stop β} (h : EndsAlike R r t) : V.Follows n R r fun _ => t :=
  .ends (.of_forall fun _ => rfl) h

theorem ok {a : α} {b : β} (h : R a b) : V.Follows n R (.ok a) fun _ => .ok b :=
  of_endsAlike (.ok h)

/-- It does not matter what the second computation is where it is not looked at. -/
theorem congr (hs : ∀ᶠ m in V.bounds n, s m = s' m) (h : V.Follows n R r s') :
    V.Follows n R r s := by
  have htrans {t : Except Stop β} (ht : ∀ᶠ m in V.bounds n, s' m = t) :
      ∀ᶠ m in V.bounds n, s m = t := by
    filter_upwards [hs, ht] with m hm hm'
    exact hm.trans hm'
  cases h with
  | excused hexcused => exact .excused hexcused
  | ends ht h => exact .ends (htrans ht) h
  | permitted ht h => exact .permitted (htrans ht) h

/-- The next steps may use that they start from the results. -/
theorem bind {f : α → Except Stop α'} {g : Nat → β → Except Stop β'} (h : V.Follows n R r s)
    (hfg : ∀ a b m, r = .ok a → s m = .ok b → R a b → V.Follows n Q (f a) fun m => g m b) :
    V.Follows n Q (r >>= f) fun m => s m >>= g m := by
  have hstopped {t : Except Stop β} {stop : Stop} (ht : ∀ᶠ m in V.bounds n, s m = t)
      (hstop : t = .error stop) : ∀ᶠ m in V.bounds n, (s m >>= g m) = .error stop := by
    filter_upwards [ht] with m hm
    rw [hm, hstop]
    rfl
  cases h with
  | excused hexcused => exact .excused hexcused
  | permitted ht h => exact .permitted (hstopped ht rfl) h
  | ends ht h =>
      cases h with
      | stop stop => exact .ends (hstopped ht rfl) (.stop stop)
      | @ok a b h =>
          obtain ⟨m, hm⟩ := ht.exists
          refine (hfg a b m rfl hm h).congr ?_
          filter_upwards [ht] with m hm
          rw [hm]
          rfl

theorem map {f : α → α'} {g : β → β'} (h : V.Follows n R r s)
    (hfg : ∀ a b, R a b → Q (f a) (g b)) : V.Follows n Q (r.map f) fun m => (s m).map g := by
  have hmapped {t : Except Stop β} (ht : ∀ᶠ m in V.bounds n, s m = t) :
      ∀ᶠ m in V.bounds n, (s m).map g = t.map g := ht.mono fun m hm => congrArg _ hm
  cases h with
  | excused hexcused => exact .excused hexcused
  | permitted ht h => exact .permitted (hmapped ht) h
  | ends ht h => exact .ends (hmapped ht) (.map (h.imp fun a b _ _ hab => hfg a b hab))

/-- One level deeper the second computation may use a bound that is larger by one. -/
theorem succ (h : V.Follows n R r fun m => s (m + 1)) : V.Follows (n + 1) R r s := by
  have hdeeper {t : Except Stop β} (ht : ∀ᶠ m in V.bounds n, s (m + 1) = t) :
      ∀ᶠ m in V.bounds (n + 1), s m = t := V.succ n ht
  cases h with
  | excused hexcused => exact .excused hexcused
  | permitted ht h => exact .permitted (hdeeper ht) h
  | ends ht h => exact .ends (hdeeper ht) h

/-- The bound of the first computation says no more than where the second one is looked at. -/
theorem of_bounds_eq {m : Nat} (hbounds : V.bounds n = V.bounds m) (h : V.Follows n R r s) :
    V.Follows m R r s := by
  cases h with
  | excused hexcused => exact .excused hexcused
  | permitted ht h => exact .permitted (hbounds ▸ ht) h
  | ends ht h => exact .ends (hbounds ▸ ht) h

/-- What else the first computation does may keep the relation or stop where nothing is asked. -/
theorem bind_left {f : α → Except Stop α'} {Q : α' → β → Prop} (h : V.Follows n R r s)
    (hf : ∀ a b, R a b →
      (∃ a', f a = .ok a' ∧ Q a' b) ∨ ∃ stop, f a = .error stop ∧ V.excuses stop) :
    V.Follows n Q (r >>= f) s := by
  cases h with
  | excused hexcused => exact .excused hexcused
  | permitted ht h => exact .permitted ht h
  | ends ht h =>
      cases h with
      | stop stop => exact .ends ht (.stop stop)
      | @ok a b h =>
          change V.Follows n Q (f a) s
          rcases hf a b h with ⟨a', ha', hq⟩ | ⟨stop, hstop, hexcused⟩
          · rw [ha']
            exact .ends ht (.ok hq)
          · rw [hstop]
            exact .excused hexcused

/-- What else the second computation does may keep the relation or stop where that is let pass. -/
theorem bind_right {f : β → Except Stop β'} {Q : α → β' → Prop} (h : V.Follows n R r s)
    (hf : ∀ a b, R a b →
      (∃ b', f b = .ok b' ∧ Q a b') ∨ ∃ stop, f b = .error stop ∧ V.permits stop) :
    V.Follows n Q r fun m => s m >>= f := by
  have hbind : V.Follows n Q (r >>= pure) fun m => s m >>= f := by
    refine h.bind fun a b _ _ _ hab => ?_
    rcases hf a b hab with ⟨b', hb', hq⟩ | ⟨stop, hstop, hpermitted⟩
    · rw [hb']
      exact .ok hq
    · exact .permitted (.of_forall fun _ => hstop) hpermitted
  rwa [bind_pure] at hbind

/-- A computation that has no depth left. -/
theorem zero {count : Nat → Nat} (hcount : Tendsto count (V.bounds n) (V.bounds 0))
    (hs : ∀ m, count m = 0 → s m = .error .nestingLimit) :
    V.Follows n R (.error .nestingLimit) s := by
  rcases V.zero with hexcused | hzero
  · exact .excused hexcused
  · exact .ends ((hcount.eventually hzero).mono hs) (.stop _)

theorem lockstep_iff : lockstep.Follows n R r s ↔ EndsAlike R r (s n) := by
  constructor
  · intro h
    cases h with
    | excused hexcused => exact hexcused.elim
    | permitted ht h => exact h.elim
    | ends ht h =>
        rw [eventually_pure.1 ht]
        exact h
  · exact fun h => .ends (eventually_pure.2 rfl) h

end Follows

end Comparison

end ParserAlgebra
