import ParserAlgebra.Proofs.Composition
import ParserAlgebra.Proofs.Comparison

/-!
# The runs that a run is made of

One level of a run asks for runs of the parts of a grammar, and of the rules that a name stands for,
from configurations of its own choice. Since the runs of the parts are left open in `runLevel`, it
can be said that a part is run: stopping it stops the level. In the same way the level comes to
whatever it goes on with, such as the rounds of an iteration.

From the runs of parts, one inside another, come the runs inside a run, whose errors are final, and
the places at which a run starts its outermost tokens.
-/

namespace ParserAlgebra

variable {σ α β : Type}

namespace Environment

/-- Running `g` from `c` runs `h` from `d`: whatever should stop that run stops the whole. -/
def RunsPart (env : Environment σ) (n : Nat) (g : Grammar σ) (c : Config σ) (h : Grammar σ)
    (d : Config σ) : Prop :=
  ∀ (stop : Stop) (run : Grammar σ → Step σ), run h d = .error stop →
    (∀ h' d', ¬ (h' = h ∧ d' = d) → run h' d' = env.run n h' d') →
      env.runLevel run n g c = .error stop

variable {env : Environment σ} {n : Nat} {a b g h : Grammar σ} {c d : Config σ}

theorem RunsPart.exists_stopped (hpart : env.RunsPart n g c h d) (stop : Stop) :
    ∃ run : Grammar σ → Step σ, env.runLevel run n g c = .error stop ∧
      ∀ h' d', ¬ (h' = h ∧ d' = d) → run h' d' = env.run n h' d' := by
  classical
  let stopped : Grammar σ → Step σ := fun h' d' =>
    if h' = h ∧ d' = d then .error stop else env.run n h' d'
  have hother (h' : Grammar σ) (d' : Config σ) (hne : ¬ (h' = h ∧ d' = d)) :
      stopped h' d' = env.run n h' d' := if_neg hne
  exact ⟨stopped, hpart stop stopped (if_pos ⟨rfl, rfl⟩) hother, hother⟩

/-- If a level comes out the same whatever is answered outside of `P`, it asks for nothing there. -/
theorem RunsPart.of_determined {P : Grammar σ → Config σ → Prop}
    (hdetermined : ∀ run : Grammar σ → Step σ, (∀ h d, P h d → run h d = env.run n h d) →
      env.runLevel run n g c = env.run (n + 1) g c)
    (hpart : env.RunsPart n g c h d) : P h d := by
  by_contra hP
  have hstops (stop : Stop) : env.run (n + 1) g c = .error stop := by
    obtain ⟨run, hlevel, hrun⟩ := hpart.exists_stopped stop
    rw [← hlevel]
    refine (hdetermined run fun h' d' hP' => hrun h' d' ?_).symm
    rintro ⟨rfl, rfl⟩
    exact hP hP'
  have hboth := (hstops .nestingLimit).symm.trans (hstops (.fault .commitWithoutCheckpoint))
  cases hboth

/-- The end of a run with the error `e`. -/
abbrev Fails (e : ParseError) : Except Stop (Outcome σ) → Prop :=
  Reaches fun o => o.verdict = .failed e

/-- A run that runs a part which ends with an error ends with that error. -/
theorem RunsPart.fails {e : ParseError} (hpart : env.RunsPart n g c h d)
    (hfails : Fails e (env.run n h d)) : Fails e (env.run (n + 1) g c) := by
  have hstops (stop : Stop) :
      env.run (n + 1) g c = .error stop ∨ Fails e (env.run (n + 1) g c) := by
    obtain ⟨run, hlevel, hrun⟩ := hpart.exists_stopped stop
    have hsame : SameRun (fun _ => False) (· = .failed e) (env.runLevel run n g c)
        (env.run (n + 1) g c) := by
      refine env.sameRun_runLevel (fun _ hv => ⟨e, hv⟩) (fun h' d' => ?_)
        (fun g c o ho _ => (env.orderly_run n g c).of_eq_ok ho) (Nat.le_refl n) (.inl rfl) g c
      by_cases hh : h' = h ∧ d' = d
      · obtain ⟨rfl, rfl⟩ := hh
        exact .final _ hfails
      · rw [hrun h' d' hh]
        exact .same _
    exact hsame.eq_error hlevel id
  rcases hstops .nestingLimit with hlimit | hfails
  · rcases hstops (.fault .commitWithoutCheckpoint) with hfault | hfails
    · cases hlimit.symm.trans hfault
    · exact hfails
  · exact hfails

/-- A way of running the parts that is stopped at some of them. -/
def Interrupted (env : Environment σ) (n : Nat) (stop : Stop) (run : Grammar σ → Step σ) : Prop :=
  ∀ h d, SameUnlessStopped stop (run h d) (env.run n h d)

/-- A level of a run comes to a computation: wherever that is stopped, so is the level. -/
def ComesTo (env : Environment σ) (n : Nat) (g : Grammar σ) (c : Config σ)
    (x : (Grammar σ → Step σ) → Except Stop α) : Prop :=
  ∀ stop run, env.Interrupted n stop run → x run = .error stop →
    env.runLevel run n g c = .error stop

/-- A computation that comes out as it does, or is stopped, when some of the parts are stopped. -/
def Interruptible (env : Environment σ) (n : Nat) (x : (Grammar σ → Step σ) → Except Stop α) :
    Prop :=
  ∀ stop run, env.Interrupted n stop run → SameUnlessStopped stop (x run) (x (env.run n))

section Interruptible

variable (env : Environment σ) (n : Nat)

theorem interruptible_run (h : Grammar σ) (d : Config σ) : env.Interruptible n fun run => run h d :=
  fun _ _ hrun => hrun h d

theorem interruptible_runInto (h : Grammar σ) (kind : Kind) (d : Config σ) :
    env.Interruptible n fun run => runInto (run h) kind d :=
  fun _ _ hrun => sameUnless_runInto (F := fun _ => False) (hrun h) kind d

theorem interruptible_separated (item separator : Grammar σ) (c : Config σ) :
    env.Interruptible n fun run => separated run item separator c := by
  intro stop run hrun
  refine SameUnless.bind (hrun separator _) (fun o => ?_) fun _ _ hfinal => hfinal.elim
  exact (o.withSlot c.slot).sameRun_andThen (F := fun _ => False) (hrun item)

end Interruptible

namespace ComesTo

variable {x : (Grammar σ → Step σ) → Except Stop α}
  {f : (Grammar σ → Step σ) → α → Except Stop β}

theorem runsPart (hcomes : env.ComesTo n g c fun run => run h d) : env.RunsPart n g c h d := by
  intro stop run hstop hrun
  refine hcomes stop run (fun h' d' => ?_) hstop
  by_cases hh : h' = h ∧ d' = d
  · rw [hh.1, hh.2]
    exact .of_eq_error hstop _
  · rw [hrun h' d' hh]
    exact .same _

theorem first (hcomes : env.ComesTo n g c fun run => x run >>= f run) : env.ComesTo n g c x := by
  intro stop run hrun hstop
  refine hcomes stop run hrun ?_
  beta_reduce
  rw [hstop]
  rfl

theorem map {x : (Grammar σ → Step σ) → Except Stop α} {f : α → β}
    (hcomes : env.ComesTo n g c fun run => (x run).map f) : env.ComesTo n g c x := by
  intro stop run hrun hstop
  refine hcomes stop run hrun ?_
  beta_reduce
  rw [hstop]
  rfl

/-- What follows on a computation, from where that has come to. -/
theorem second (hcomes : env.ComesTo n g c fun run => x run >>= f run)
    (hx : env.Interruptible n x) {a : α} (ha : x (env.run n) = .ok a) :
    env.ComesTo n g c fun run => f run a := by
  intro stop run hrun hstop
  refine hcomes stop run hrun ?_
  beta_reduce
  rcases (hx stop run hrun).eq_or_eq_error with hsame | hstopped
  · rw [hsame, ha]
    exact hstop
  · rw [hstopped]
    rfl

theorem andThen {next : (Grammar σ → Step σ) → Step σ} {o : Outcome σ}
    (hcomes : env.ComesTo n g c fun run => o.andThen (next run)) (hmatched : o.verdict = .matched) :
    env.ComesTo n g c fun run => next run o.config := by
  simp only [Outcome.andThen_of_matched hmatched] at hcomes
  exact hcomes.map

theorem orElse {next : (Grammar σ → Step σ) → Step σ} {o : Outcome σ} {message : String}
    {tried : Grammar σ} {start : Position}
    (hcomes : env.ComesTo n g c fun run => env.orElse message tried start o (next run))
    (hmismatched : o.verdict = .mismatched) (hstayed : o.config.cursor.offset = start.offset) :
    env.ComesTo n g c fun run => next run o.config := by
  simp only [orElse_of_mismatched hmismatched hstayed] at hcomes
  exact hcomes.map

end ComesTo

/-- Where a first part is run, and a second one from where the first one has stopped, if it has
stopped in such a way that the run goes on. -/
theorem runsPart_iff_of_second {goesOn : Outcome σ → Prop}
    (behind : Step σ → Outcome σ → Except Stop (Outcome σ))
    (hlevel : ∀ run : Grammar σ → Step σ, env.runLevel run n g c = run a c >>= behind (run b))
    (hgoes : ∀ o, goesOn o → ∀ next, behind next o = (next o.config).map (·.after o.records))
    (hstays : ∀ o, ¬ goesOn o → ∀ next next', behind next o = behind next' o) :
    env.RunsPart n g c h d ↔
      (h = a ∧ d = c) ∨ ∃ o, env.run n a c = .ok o ∧ goesOn o ∧ h = b ∧ d = o.config := by
  let P (h : Grammar σ) (d : Config σ) : Prop :=
    (h = a ∧ d = c) ∨ ∃ o, env.run n a c = .ok o ∧ goesOn o ∧ h = b ∧ d = o.config
  constructor
  · refine RunsPart.of_determined (P := P) fun run hrun => ?_
    have hfirst : run a c = env.run n a c := hrun a c (.inl ⟨rfl, rfl⟩)
    rw [Environment.run, hlevel, hlevel, hfirst]
    cases ho : env.run n a c with
    | error stop => rfl
    | ok o =>
        change behind (run b) o = behind (env.run n b) o
        by_cases h : goesOn o
        · rw [hgoes o h, hgoes o h, hrun b o.config (.inr ⟨o, ho, h, rfl, rfl⟩)]
        · exact hstays o h _ _
  · have hcomes : env.ComesTo n g c fun run => run a c >>= behind (run b) :=
      fun _ run _ hstop => (hlevel run).trans hstop
    rintro (⟨rfl, rfl⟩ | ⟨o, ho, hgo, rfl, rfl⟩)
    · exact hcomes.first.runsPart
    · have hsecond := hcomes.second (env.interruptible_run n a c) ho
      simp only [hgoes o hgo] at hsecond
      exact hsecond.map.runsPart

/-- A sequence runs its first part, and the second one from where the first one has matched. -/
theorem runsPart_sequence_iff :
    env.RunsPart n (.sequence a b) c h d ↔
      (h = a ∧ d = c) ∨
        ∃ o, env.run n a c = .ok o ∧ o.verdict = .matched ∧ h = b ∧ d = o.config := by
  refine runsPart_iff_of_second (fun next o => o.andThen next) (fun _ => rfl)
    (fun o hmatched next => Outcome.andThen_of_matched hmatched) fun o hmatched next next' => ?_
  rw [Outcome.andThen_of_not_matched hmatched, Outcome.andThen_of_not_matched hmatched]

/-- A choice runs its first part, and the second one if the first one has not matched and has not
moved the cursor. -/
theorem runsPart_choice_iff :
    env.RunsPart n (.choice a b) c h d ↔
      (h = a ∧ d = c) ∨
        ∃ o, env.run n a c = .ok o ∧
          (o.verdict = .mismatched ∧ o.config.cursor.offset = c.cursor.offset) ∧
            h = b ∧ d = o.config := by
  refine runsPart_iff_of_second
    (fun next o => env.orElse branchConsumed a c.cursor.position o next) (fun _ => rfl)
    (fun o h next => orElse_of_mismatched h.1 h.2 _ _) fun o h next next' => ?_
  by_cases hmismatched : o.verdict = .mismatched
  · have hmoved : o.config.cursor.offset ≠ c.cursor.position.offset :=
      fun hstayed => h ⟨hmismatched, hstayed⟩
    unfold orElse
    rw [if_pos hmoved, if_pos hmoved]
  · rw [orElse_of_not_mismatched hmismatched, orElse_of_not_mismatched hmismatched]

end Environment

/-- A run of `g` from `c` runs `h` from `d`: the run of a part does, or of a part of a part, and so
on. -/
inductive Environment.RunsWithin (env : Environment σ) (m : Nat) (h : Grammar σ) (d : Config σ) :
    Nat → Grammar σ → Config σ → Prop
  | here : RunsWithin env m h d m h d
  | inside {n : Nat} {g part : Grammar σ} {c e : Config σ} (hpart : env.RunsPart n g c part e)
      (hwithin : RunsWithin env m h d n part e) : RunsWithin env m h d (n + 1) g c

/-- An error is final, however deep inside a run it comes up. -/
theorem Environment.RunsWithin.fails {env : Environment σ} {m n : Nat} {g h : Grammar σ}
    {c d : Config σ} {e : ParseError} (hwithin : env.RunsWithin m h d n g c)
    (hfails : Fails e (env.run m h d)) : Fails e (env.run n g c) := by
  induction hwithin with
  | here => exact hfails
  | inside hpart hwithin ih => exact hpart.fails ih

/-- Whether a grammar is a token. -/
def Grammar.isToken : Grammar σ → Bool
  | .token _ => true
  | _ => false

theorem Grammar.exists_of_isToken {g : Grammar σ} (h : g.isToken = true) :
    ∃ item, g = .token item := by
  cases g with
  | token item => exact ⟨item, rfl⟩
  | _ => cases h

/-- A run starts the token of `item` from `e`, in no other token. -/
inductive Environment.StartsToken (env : Environment σ) (item : Grammar σ) (e : Config σ) :
    Nat → Grammar σ → Config σ → Prop
  | here {n : Nat} : StartsToken env item e (n + 1) (.token item) e
  | inside {n : Nat} {g h : Grammar σ} {c d : Config σ} (hg : g.isToken = false)
      (hpart : env.RunsPart n g c h d) (hstarts : StartsToken env item e n h d) :
      StartsToken env item e (n + 1) g c

end ParserAlgebra
