import ParserAlgebra.Run

/-!
# How computations end

A computation that may stop ends in one of three ways: with a result, by going too deep, or at a
fault of the cursor. `Ends` speaks of all three at once, so one induction over runs can say what
results look like and that no fault was met. `SameUnless` compares a computation with one that may
be stopped earlier, such as the same one under a smaller bound on its depth.
-/

namespace ParserAlgebra

variable {α β : Type} {excuse excuse' : Prop} {P : α → Prop} {Q : β → Prop}

/-- A result satisfies `P`, and a fault is met only if there is an `excuse` for it. Nothing is said
of a computation that goes too deep. -/
def Ends (excuse : Prop) (P : α → Prop) : Except Stop α → Prop
  | .ok a => P a
  | .error .nestingLimit => True
  | .error (.fault _) => excuse

namespace Ends

theorem imp {r : Except Stop α} (h : Ends excuse P r) (hexcuse : excuse → excuse')
    {P' : α → Prop} (hP : ∀ a, P a → P' a) : Ends excuse' P' r := by
  cases r with
  | ok a => exact hP a h
  | error stop =>
      cases stop with
      | nestingLimit => trivial
      | fault f => exact hexcuse h

theorem bind {r : Except Stop α} {f : α → Except Stop β} (h : Ends excuse P r)
    (hf : ∀ a, P a → Ends excuse Q (f a)) : Ends excuse Q (r >>= f) := by
  cases r with
  | ok a => exact hf a h
  | error stop =>
      cases stop with
      | nestingLimit => trivial
      | fault f => exact h

/-- Where faults are excused, the next step may use that it starts from the result. -/
theorem bind_of_eq {r : Except Stop α} {f : α → Except Stop β}
    (hf : ∀ a, r = .ok a → Ends True Q (f a)) : Ends True Q (r >>= f) := by
  cases r with
  | ok a => exact hf a rfl
  | error stop => cases stop <;> trivial

theorem of_ok {r : Except Stop α} (h : ∀ a, r = .ok a → P a) : Ends True P r := by
  cases r with
  | ok a => exact h a rfl
  | error stop => cases stop <;> trivial

theorem map {r : Except Stop α} {f : α → β} (h : Ends excuse (fun a => Q (f a)) r) :
    Ends excuse Q (r.map f) := by
  cases r with
  | ok a => exact h
  | error stop =>
      cases stop with
      | nestingLimit => trivial
      | fault f => exact h

theorem of_eq_ok {r : Except Stop α} (h : Ends excuse P r) {a : α} (hr : r = .ok a) : P a := by
  subst hr
  exact h

theorem of_eq_fault {r : Except Stop α} (h : Ends excuse P r) {f : Fault}
    (hr : r = .error (.fault f)) : excuse := by
  subst hr
  exact h

end Ends

/-- A computation comes to a result that satisfies `P`. -/
def Reaches (P : α → Prop) (r : Except Stop α) : Prop :=
  ∃ a, r = .ok a ∧ P a

/-- Two computations are the same, unless the first one is stopped in one of some ways or the second
one comes to a result that is final. -/
inductive SameUnless (stops : Stop → Prop) (final : α → Prop) :
    Except Stop α → Except Stop α → Prop
  | same (r : Except Stop α) : SameUnless stops final r r
  | stopped {stop : Stop} (h : stops stop) (s : Except Stop α) :
      SameUnless stops final (.error stop) s
  | final (r : Except Stop α) {s : Except Stop α} (h : Reaches final s) :
      SameUnless stops final r s

namespace SameUnless

variable {stops : Stop → Prop} {r s : Except Stop α}

/-- A final result has to stay final in what follows. -/
theorem bind {f g : α → Except Stop β} (h : SameUnless stops P r s)
    (hf : ∀ a, SameUnless stops Q (f a) (g a)) (hfinal : ∀ a, s = .ok a → P a → Reaches Q (g a)) :
    SameUnless stops Q (r >>= f) (s >>= g) := by
  cases h with
  | same =>
      cases r with
      | ok a => exact hf a
      | error stop => exact .same _
  | stopped h s => exact .stopped h _
  | final r h =>
      obtain ⟨a, rfl, ha⟩ := h
      exact .final _ (hfinal a rfl ha)

theorem map {f : α → β} (h : SameUnless stops P r s) (hfinal : ∀ a, P a → Q (f a)) :
    SameUnless stops Q (r.map f) (s.map f) := by
  cases h with
  | same => exact .same _
  | stopped h s => exact .stopped h _
  | final r h =>
      obtain ⟨a, rfl, ha⟩ := h
      exact .final _ ⟨f a, rfl, hfinal a ha⟩

/-- If the first computation stops in another way, so does the second one, unless it comes to a
final result. -/
theorem eq_error (h : SameUnless stops P r s) {stop : Stop} (hr : r = .error stop)
    (hother : ¬ stops stop) : s = .error stop ∨ Reaches P s := by
  cases h with
  | same => exact .inl hr
  | stopped h s =>
      cases hr
      exact absurd h hother
  | final r h => exact .inr h

end SameUnless

/-- Two computations are the same, unless the first one stops in the way told. -/
abbrev SameUnlessStopped (stop : Stop) (r s : Except Stop α) : Prop :=
  SameUnless (fun other => other = stop) (fun _ => False) r s

namespace SameUnlessStopped

variable {stop : Stop} {r : Except Stop α}

theorem of_eq_error (hr : r = .error stop) (s : Except Stop α) : SameUnlessStopped stop r s := by
  subst hr
  apply SameUnless.stopped
  rfl

theorem eq_or_eq_error {s : Except Stop α} (h : SameUnlessStopped stop r s) :
    r = s ∨ r = .error stop := by
  cases h with
  | same => exact .inl rfl
  | stopped h s =>
      subst h
      exact .inr rfl
  | final r h =>
      obtain ⟨a, -, hfinal⟩ := h
      exact hfinal.elim

end SameUnlessStopped

/-- A computation under some bound is continued by one under a larger bound: it went too deep, or
the two agree. -/
abbrev ContinuedBy (r s : Except Stop α) : Prop :=
  SameUnlessStopped .nestingLimit r s

namespace ContinuedBy

theorem refl (r : Except Stop α) : ContinuedBy r r :=
  .same r

theorem nestingLimit (s : Except Stop α) : ContinuedBy (.error .nestingLimit) s :=
  .of_eq_error rfl s

theorem bind {r s : Except Stop α} {f g : α → Except Stop β} (h : ContinuedBy r s)
    (hf : ∀ a, ContinuedBy (f a) (g a)) : ContinuedBy (r >>= f) (s >>= g) :=
  SameUnless.bind h hf fun _ _ hfinal => hfinal.elim

theorem map {r s : Except Stop α} (f : α → β) (h : ContinuedBy r s) :
    ContinuedBy (r.map f) (s.map f) :=
  SameUnless.map h fun _ hfinal => hfinal

theorem eq_of_ne {r s : Except Stop α} (h : ContinuedBy r s) (hr : r ≠ .error .nestingLimit) :
    r = s :=
  h.eq_or_eq_error.resolve_right hr

theorem eq_ok {r s : Except Stop α} (h : ContinuedBy r s) {a : α} (hr : r = .ok a) : s = .ok a :=
  (h.eq_of_ne (by simp [hr])).symm.trans hr

end ContinuedBy

end ParserAlgebra
