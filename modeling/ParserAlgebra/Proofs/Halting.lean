import ParserAlgebra.Proofs.OrderedChoice

/-!
# Runs that come to an end

Only rules and iterations can keep a run from coming to an end; whatever else it does, errors and
records included, it does in one go. So runs put together from runs that come to an end under some
bound on nesting do so under a common one, and iterations do because the text ahead gets shorter.
-/

namespace ParserAlgebra

variable {σ α β : Type}

/-- A computation that did not go too deep. -/
def Finishes (r : Except Stop α) : Prop :=
  r ≠ .error .nestingLimit

namespace Finishes

variable {r s : Except Stop α}

theorem ok (a : α) : Finishes (.ok a) :=
  fun h => nomatch h

theorem bind {f : α → Except Stop β} (h : Finishes r) (hf : ∀ a, r = .ok a → Finishes (f a)) :
    Finishes (r >>= f) := by
  cases r with
  | ok a => exact hf a rfl
  | error stop => exact fun hstop => h (congrArg Except.error (Except.error.inj hstop))

theorem map (h : Finishes r) (f : α → β) : Finishes (r.map f) := by
  cases r with
  | ok a => exact .ok _
  | error stop => exact fun hstop => h (congrArg Except.error (Except.error.inj hstop))

theorem mapError_fault (r : Except Fault α) : Finishes (r.mapError .fault) := by
  cases r with
  | ok a => exact .ok a
  | error f => exact fun hstop => nomatch Except.error.inj hstop

theorem of_continuedBy (h : Finishes r) (hcontinued : ContinuedBy r s) : Finishes s := by
  rw [← hcontinued.eq_of_ne h]
  exact h

end Finishes

/-- A computation under a bound that only makes it go further. -/
def Growing (f : Nat → Except Stop α) : Prop :=
  ∀ n m, n ≤ m → ContinuedBy (f n) (f m)

theorem Growing.const (r : Except Stop α) : Growing fun _ => r :=
  fun _ _ _ => .refl r

/-- A computation that comes to an end if its bound is large enough. -/
def Halts (f : Nat → Except Stop α) : Prop :=
  ∃ n, Finishes (f n)

namespace Halts

variable {f : Nat → Except Stop α}

theorem of_succ (h : Halts fun n => f (n + 1)) : Halts f := by
  obtain ⟨n, hn⟩ := h
  exact ⟨n + 1, hn⟩

theorem of_forall (h : ∀ n, Finishes (f n)) : Halts f :=
  ⟨0, h 0⟩

/-- What is done in one go needs no bound. -/
theorem bind_finishing {g : α → Except Stop β} (h : Halts f) (hg : ∀ a, Finishes (g a)) :
    Halts fun n => f n >>= g := by
  obtain ⟨n, hn⟩ := h
  exact ⟨n, hn.bind fun a _ => hg a⟩

/-- One bound is large enough for both computations. -/
theorem bind {g : Nat → α → Except Stop β} (h : Halts f) (hf : Growing f)
    (hg : ∀ a, Growing fun n => g n a) (hnext : ∀ n a, f n = .ok a → Halts fun n => g n a) :
    Halts fun n => f n >>= g n := by
  obtain ⟨n, hn⟩ := h
  cases hr : f n with
  | error stop =>
      refine ⟨n, ?_⟩
      change Finishes (f n >>= g n)
      rw [hr] at hn ⊢
      exact hn.bind fun a ha => nomatch ha
  | ok a =>
      obtain ⟨m, hm⟩ := hnext n a hr
      refine ⟨max n m, ?_⟩
      change Finishes (f (max n m) >>= g (max n m))
      rw [(hf n _ (Nat.le_max_left n m)).eq_ok hr]
      exact hm.of_continuedBy (hg a m _ (Nat.le_max_right n m))

end Halts

namespace Cursor.Onward

variable {c d : Cursor}

theorem length_le (h : c.Onward d) : d.ahead.length ≤ c.ahead.length := by
  obtain ⟨passed, hahead, -⟩ := h.place
  rw [show c.ahead = passed ++ d.ahead from hahead, List.length_append]
  exact Nat.le_add_left _ _

theorem length_lt (h : c.Onward d) (hmoved : d.offset ≠ c.offset) :
    d.ahead.length < c.ahead.length := by
  obtain ⟨passed, hahead, hposition⟩ := h.place
  have hpassed : passed ≠ [] := by
    rintro rfl
    exact hmoved (congrArg Position.offset hposition)
  rw [show c.ahead = passed ++ d.ahead from hahead, List.length_append]
  exact Nat.lt_add_of_pos_left (List.length_pos_iff.2 hpassed)

end Cursor.Onward

namespace Environment

variable (env : Environment σ) {c : Config σ} {o : Outcome σ}

theorem finishes_raise (kind : ErrorKind) (message : String) (expectation : Expectation)
    (start reported : Position) (c : Config σ) :
    Finishes (env.raise kind message expectation start reported c) :=
  (Finishes.mapError_fault _).bind fun _ _ => .ok _

theorem finishes_expectationOf (g : Grammar σ) : Finishes (env.expectationOf g) := by
  obtain ⟨expectation, hexpectation⟩ := env.exists_expectationOf g
  rw [hexpectation]
  exact .ok _

theorem finishes_raiseFor (kind : ErrorKind) (message : String) (g : Grammar σ) (start : Position)
    (c : Config σ) : Finishes (env.raiseFor kind message g start c) :=
  (env.finishes_expectationOf g).bind fun _ _ => env.finishes_raise _ _ _ _ _ c

theorem finishes_act (g : Grammar σ) (kind : Kind) (action : Action σ) (args : Arguments)
    (start : Position) (c : Config σ) : Finishes (env.act g kind action args start c) := by
  unfold act
  dsimp only
  split
  · exact .ok _
  · exact (env.finishes_expectationOf g).bind fun _ _ => env.finishes_raise _ _ _ _ _ _

theorem finishes_settle (g : Grammar σ) (restores : Bool) (c : Config σ) (o : Outcome σ) :
    Finishes (env.settle g restores c o) := by
  have hback (o : Outcome σ) : Finishes o.backtrack :=
    (Finishes.mapError_fault _).bind fun _ _ => .ok _
  obtain ⟨text, htext⟩ := env.store.exists_ebnf g
  unfold settle
  split
  · exact (Finishes.mapError_fault _).bind fun _ _ => .ok _
  · rw [htext]
    split
    · exact (hback _).bind fun _ _ => .ok _
    · exact (hback _).bind fun _ _ => .ok _

theorem finishes_settleExcept (mayAct : Bool) (forbidden : Value) (c : Config σ) (o : Outcome σ) :
    Finishes (env.settleExcept mayAct forbidden c o) := by
  have hback (o : Outcome σ) : Finishes o.backtrack :=
    (Finishes.mapError_fault _).bind fun _ _ => .ok _
  have hkept (o : Outcome σ) : Finishes o.commit :=
    (Finishes.mapError_fault _).bind fun _ _ => .ok _
  unfold settleExcept
  split
  · split
    · exact (hback _).bind fun _ _ => .ok _
    · exact (hkept o).bind fun _ _ => .ok _
  · exact (hkept o).bind fun _ _ => .ok _

theorem finishes_traceRecords (label : String) (start : Position) (o : Outcome σ) :
    Finishes (env.traceRecords label start o) := by
  unfold traceRecords
  dsimp only
  split
  · split
    · exact (Finishes.mapError_fault _).bind fun _ _ => .ok _
    · exact .ok _
  · exact .ok _
  · exact .ok _

omit env in
theorem finishes_andThen {next : Step σ} (h : ∀ c, Finishes (next c)) :
    Finishes (o.andThen next) := by
  unfold Outcome.andThen
  split
  · exact (h _).map _
  · exact .ok o

omit env in
theorem halts_andThen {next : Nat → Step σ}
    (h : o.verdict = .matched → Halts fun n => next n o.config) :
    Halts fun n => o.andThen (next n) := by
  by_cases hmatched : o.verdict = .matched
  · obtain ⟨n, hn⟩ := h hmatched
    refine ⟨n, ?_⟩
    beta_reduce
    rw [Outcome.andThen_of_matched hmatched]
    exact hn.map _
  · refine .of_forall fun n => ?_
    rw [Outcome.andThen_of_not_matched hmatched]
    exact .ok o

/-- The next step is taken in place only. -/
theorem halts_orElse {next : Nat → Step σ} {start : Position}
    (h : o.config.cursor.offset = start.offset → Halts fun n => next n o.config)
    (message : String) (tried : Grammar σ) :
    Halts fun n => env.orElse message tried start o (next n) := by
  by_cases hmismatched : o.verdict = .mismatched
  · by_cases hstayed : o.config.cursor.offset = start.offset
    · obtain ⟨n, hn⟩ := h hstayed
      refine ⟨n, ?_⟩
      beta_reduce
      rw [orElse_of_mismatched hmismatched hstayed]
      exact hn.map _
    · refine .of_forall fun n => ?_
      rw [orElse, hmismatched]
      dsimp only
      rw [if_pos hstayed]
      exact (env.finishes_raiseFor _ _ _ _ _).map _
  · refine .of_forall fun n => ?_
    rw [orElse_of_not_mismatched hmismatched]
    exact .ok o

section Iterate

variable {step : Nat → Step σ} (hgrowing : ∀ c, Growing fun n => step n c)

include hgrowing

/-- By induction on what lies ahead, which each iteration but the last makes shorter. -/
theorem exists_finishes_iterate (horderly : ∀ n c, Orderly c.cursor (step n c))
    (blamed : Grammar σ) (owed : Nat) {c : Config σ}
    (hstep : ∀ d : Config σ, d.cursor.ahead.length ≤ c.cursor.ahead.length →
      Halts fun n => step n d) :
    ∃ n m, Finishes (env.iterate blamed (step n) m owed c) := by
  generalize hlength : c.cursor.ahead.length = length
  induction length using Nat.strong_induction_on generalizing c owed with
  | _ length ih =>
      subst hlength
      obtain ⟨n, hn⟩ := hstep c (Nat.le_refl _)
      cases hr : step n c with
      | error stop =>
          beta_reduce at hn
          rw [hr] at hn
          refine ⟨n, 1, ?_⟩
          rw [iterate, hr]
          refine hn.bind fun o ho => ?_
          cases ho
      | ok o =>
          have honward : c.cursor.Onward o.config.cursor := (horderly n c).of_eq_ok hr
          by_cases hmatched : o.verdict = .matched
          · by_cases hstayed : o.config.cursor.offset = c.cursor.offset
            · refine ⟨n, 1, ?_⟩
              rw [iterate_of_empty hr hmatched hstayed]
              exact .ok _
            · have hshorter := honward.length_lt hstayed
              obtain ⟨n', m, hm⟩ := ih _ hshorter (owed - 1)
                (fun d hd => hstep d (hd.trans hshorter.le)) rfl
              have hr' : step (max n n') c = .ok o :=
                (hgrowing c n _ (Nat.le_max_left n n')).eq_ok hr
              have hcontinued := env.continuedBy_iterate blamed
                (fun d => hgrowing d n' _ (Nat.le_max_right n n')) (Nat.le_refl m) (owed - 1)
                o.config
              refine ⟨max n n', m + 1, ?_⟩
              rw [iterate_of_moved hr' hmatched hstayed]
              exact (hm.of_continuedBy hcontinued).map _
          · obtain ⟨n', hn'⟩ : Halts fun _ : Nat => env.orElse iterationConsumed blamed
                c.cursor.position o fun c => .ok (if owed = 0 then c.matched else c.mismatched) :=
              env.halts_orElse (fun _ => .of_forall fun _ => .ok _) _ _
            refine ⟨n, 1, ?_⟩
            rw [iterate, hr]
            dsimp only [bind, Except.bind]
            cases hverdict : o.verdict with
            | matched => exact absurd hverdict hmatched
            | mismatched => exact hn'
            | failed e => exact hn'

theorem halts_iterate (horderly : ∀ n c, Orderly c.cursor (step n c)) (blamed : Grammar σ)
    (owed : Nat) {c : Config σ}
    (hstep : ∀ d : Config σ, d.cursor.ahead.length ≤ c.cursor.ahead.length →
      Halts fun n => step n d) :
    Halts fun n => env.iterate blamed (step n) n owed c := by
  obtain ⟨n, m, hm⟩ := env.exists_finishes_iterate hgrowing horderly blamed owed hstep
  exact ⟨max n m, hm.of_continuedBy (env.continuedBy_iterate blamed
    (fun d => hgrowing d n _ (Nat.le_max_left n m)) (Nat.le_max_right n m) owed c)⟩

end Iterate

theorem growing_run (g : Grammar σ) (c : Config σ) : Growing fun n => env.run n g c :=
  fun _ _ hnm => env.continuedBy_run hnm g c

theorem growing_separated (item separator : Grammar σ) (c : Config σ) :
    Growing fun n => separated (env.run n) item separator c :=
  fun _ _ hnm => (env.continuedBy_run hnm separator _).bind fun o =>
    (o.withSlot c.slot).continuedBy_andThen (env.continuedBy_run hnm item)

theorem halts_separated {item separator : Grammar σ}
    (hitem : ∀ d : Config σ, d.cursor.ahead.length ≤ c.cursor.ahead.length →
      Halts fun n => env.run n item d)
    (hseparator : Halts fun n => env.run n separator { c with slot := none }) :
    Halts fun n => separated (env.run n) item separator c := by
  refine hseparator.bind (env.growing_run separator _)
    (fun o _ _ hnm => (o.withSlot c.slot).continuedBy_andThen (env.continuedBy_run hnm item))
    fun n o ho => halts_andThen fun _ => ?_
  have honward : c.cursor.Onward o.config.cursor :=
    (env.orderly_run n separator { c with slot := none }).of_eq_ok ho
  exact hitem _ honward.length_le

section Parts

variable {parts : List (Kind × Grammar σ)} {length : Nat}

theorem halts_runInto {step : Nat → Step σ} {kind : Kind}
    (h : Halts fun n => step n { c with slot := some kind.default }) :
    Halts fun n => runInto (step n) kind c :=
  h.bind_finishing fun _ => .ok _

theorem exists_of_runInto {step : Step σ} {kind : Kind} {p : Value × Outcome σ}
    (h : runInto step kind c = .ok p) :
    ∃ o, step { c with slot := some kind.default } = .ok o ∧
      p = (o.config.slot.getD kind.default, o.withSlot c.slot) := by
  unfold runInto at h
  cases ho : step { c with slot := some kind.default } with
  | error stop =>
      rw [ho] at h
      cases h
  | ok o =>
      rw [ho] at h
      exact ⟨o, rfl, (Except.ok.inj h).symm⟩

theorem growing_runInto (g : Grammar σ) (kind : Kind) (c : Config σ) :
    Growing fun n => runInto (env.run n g) kind c :=
  fun _ _ hnm => continuedBy_runInto (env.continuedBy_run hnm g) kind c

theorem growing_runAll (parts : List (Kind × Grammar σ)) (c : Config σ) :
    Growing fun n => runAll (env.run n) parts c :=
  fun _ _ hnm => continuedBy_runAll (env.continuedBy_run hnm) parts c

theorem growing_runAny (start : Position) (parts : List (Kind × Grammar σ)) (i : Nat)
    (c : Config σ) : Growing fun n => env.runAny (env.run n) start i parts c :=
  fun _ _ hnm => env.continuedBy_runAny (env.continuedBy_run hnm) start parts i c

/-- Parts in order are run from where the text ahead is shorter, but for the first ones up to one
that moves the cursor. -/
theorem halts_runAll {mayStay : Grammar σ → Prop}
    (hstay : ∀ n g c o, env.run n g c = .ok o → o.verdict = .matched →
      o.config.cursor.offset = c.cursor.offset → mayStay g)
    (hshorter : ∀ g (c : Config σ), c.cursor.ahead.length < length → Halts fun n => env.run n g c)
    (h : c.cursor.ahead.length < length ∨ c.cursor.ahead.length ≤ length ∧
      ∀ front part back, parts = front ++ part :: back → (∀ q ∈ front, mayStay q.2) →
        ∀ c : Config σ, c.cursor.ahead.length ≤ length → Halts fun n => env.run n part.2 c) :
    Halts fun n => runAll (env.run n) parts c := by
  induction parts generalizing c with
  | nil => exact .of_forall fun _ => .ok _
  | cons part parts ih =>
      obtain ⟨kind, g⟩ := part
      have hfirst : Halts fun n => env.run n g { c with slot := some kind.default } := by
        rcases h with hlt | ⟨hle, hparts⟩
        · exact hshorter g _ hlt
        · exact hparts [] (kind, g) parts rfl (fun _ hq => nomatch hq) _ hle
      refine (halts_runInto hfirst).bind (env.growing_runInto g kind c) (fun p n m hnm => ?_) ?_
      · obtain ⟨v, verdict, config, records⟩ := p
        cases verdict with
        | matched => exact (env.growing_runAll parts config n m hnm).bind fun _ => .refl _
        | mismatched => exact .refl _
        | failed e => exact .refl _
      · intro n p hp
        obtain ⟨o, ho, rfl⟩ := exists_of_runInto hp
        have honward : c.cursor.Onward o.config.cursor :=
          (env.orderly_run n g { c with slot := some kind.default }).of_eq_ok ho
        obtain ⟨verdict, config, records⟩ := o
        cases verdict with
        | matched =>
            refine (ih ?_).bind_finishing fun _ => .ok _
            by_cases hstayed : config.cursor.offset = c.cursor.offset
            · refine h.imp (honward.length_le.trans_lt ·) fun ⟨hle, hparts⟩ => ?_
              refine ⟨honward.length_le.trans hle, fun front part back hsplit hfront => ?_⟩
              refine hparts ((kind, g) :: front) part back (congrArg _ hsplit) ?_
              exact List.forall_mem_cons.2 ⟨hstay n g _ _ ho rfl hstayed, hfront⟩
            · left
              exact (honward.length_lt hstayed).trans_le (h.elim (·.le) (·.1))
        | mismatched => exact .of_forall fun _ => .ok _
        | failed e => exact .of_forall fun _ => .ok _

theorem halts_runAny (hparts : ∀ part ∈ parts, ∀ c : Config σ, c.cursor.ahead.length ≤ length →
    Halts fun n => env.run n part.2 c) (start : Position) (i : Nat)
    (hle : c.cursor.ahead.length ≤ length) :
    Halts fun n => env.runAny (env.run n) start i parts c := by
  induction parts generalizing i c with
  | nil => exact .of_forall fun _ => .ok _
  | cons part parts ih =>
      obtain ⟨hpart, hrest⟩ := List.forall_mem_cons.1 hparts
      obtain ⟨kind, g⟩ := part
      refine (halts_runInto (hpart { c with slot := some kind.default } hle)).bind
        (env.growing_runInto g kind c) (fun p n m hnm => ?_) ?_
      · obtain ⟨v, verdict, config, records⟩ := p
        cases verdict with
        | matched => exact .refl _
        | mismatched =>
            dsimp only
            split
            · exact .refl _
            · exact (env.growing_runAny start parts (i + 1) config n m hnm).bind fun _ => .refl _
        | failed e => exact .refl _
      · intro n p hp
        obtain ⟨o, ho, rfl⟩ := exists_of_runInto hp
        have honward : c.cursor.Onward o.config.cursor :=
          (env.orderly_run n g { c with slot := some kind.default }).of_eq_ok ho
        obtain ⟨verdict, config, records⟩ := o
        cases verdict with
        | matched => exact .of_forall fun _ => .ok _
        | mismatched =>
            dsimp only [Outcome.withSlot]
            split
            · exact .of_forall fun _ => (env.finishes_raiseFor _ _ _ _ _).bind fun _ _ => .ok _
            · have hlater := ih (c := { config with slot := c.slot }) hrest (i + 1)
                (honward.length_le.trans hle)
              exact hlater.bind_finishing fun _ => .ok _
        | failed e => exact .of_forall fun _ => .ok _

end Parts

end Environment

end ParserAlgebra
