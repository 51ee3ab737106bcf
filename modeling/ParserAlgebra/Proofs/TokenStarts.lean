import ParserAlgebra.Proofs.RunParts
import ParserAlgebra.Proofs.Tokens

/-!
# Where tokens start

A grammar that takes its input in tokens only, and is not begun before whitespace, starts each of
its tokens where there is no whitespace, and stops there if it matches. What is in a token may stop
anywhere, in the middle of whitespace too, but then the token has not matched, and after a mismatch
that has moved the cursor nothing is run before the cursor has been taken back.
-/

namespace ParserAlgebra

variable {σ α β : Type}

namespace Grammar

/-- A grammar in which only tokens and the whitespace before the first one take anything, if the
rules it refers to are among `rules`. What a token is made of is left open. -/
inductive Tokenized (env : Environment σ) (rules : RuleName → Prop) : Grammar σ → Prop
  | token (item : Grammar σ) : Tokenized env rules (.token item)
  | firstToken : Tokenized env rules .firstToken
  | resting {g : Grammar σ} (hreads : g.Reads)
      (hrests : ∀ c o, env.Yields g c o → o.config.cursor.offset = c.cursor.offset) :
      Tokenized env rules g
  | succeed : Tokenized env rules .succeed
  | fail : Tokenized env rules .fail
  | sequence {a b : Grammar σ} (ha : Tokenized env rules a) (hb : Tokenized env rules b) :
      Tokenized env rules (.sequence a b)
  | choice {a b : Grammar σ} (ha : Tokenized env rules a) (hb : Tokenized env rules b) :
      Tokenized env rules (.choice a b)
  | repetition {atLeast : Nat} {item : Grammar σ} (hitem : Tokenized env rules item) :
      Tokenized env rules (.repetition atLeast item)
  | option {item : Grammar σ} (hitem : Tokenized env rules item) :
      Tokenized env rules (.option item)
  | sepBy {item separator : Grammar σ} (hitem : Tokenized env rules item)
      (hseparator : Tokenized env rules separator) : Tokenized env rules (.sepBy item separator)
  | discard {item : Grammar σ} (hitem : Tokenized env rules item) :
      Tokenized env rules (.discard item)
  | except {kind : Kind} {item : Grammar σ} {forbidden : Value}
      (hitem : Tokenized env rules item) : Tokenized env rules (.except kind item forbidden)
  | attempt {item : Grammar σ} (hitem : Tokenized env rules item) :
      Tokenized env rules (.attempt item)
  | attemptPure {item : Grammar σ} (hitem : Tokenized env rules item) :
      Tokenized env rules (.attemptPure item)
  | strict {message : String} {item : Grammar σ} (hitem : Tokenized env rules item) :
      Tokenized env rules (.strict message item)
  | trace {label : String} {item : Grammar σ} (hitem : Tokenized env rules item) :
      Tokenized env rules (.trace label item)
  | shared {item : Grammar σ} (hitem : Tokenized env rules item) :
      Tokenized env rules (.shared item)
  | reference {name : String} {body : Grammar σ} (hbody : Tokenized env rules body) :
      Tokenized env rules (.reference name body)
  | define {name : String} {body : Grammar σ} (hbody : Tokenized env rules body) :
      Tokenized env rules (.define name body)
  | rename {name : String} {rank : Rank} {body : Grammar σ} (hbody : Tokenized env rules body) :
      Tokenized env rules (.rename name rank body)
  | all {kind : Kind} {action : Action σ} {parts : List (Kind × Grammar σ)}
      (hparts : ∀ part ∈ parts, Tokenized env rules part.2) :
      Tokenized env rules (.all kind action parts)
  | any {kind : Kind} {action : Action σ} {parts : List (Kind × Grammar σ)}
      (hparts : ∀ part ∈ parts, Tokenized env rules part.2) :
      Tokenized env rules (.any kind action parts)
  | handle {slot : Slot} (hslot : rules (.slot slot)) : Tokenized env rules (.handle slot)
  | fixed {hold : Hold} {name : String} {rule : RuleId} (hrule : rules (.fixed rule)) :
      Tokenized env rules (.fixed hold name rule)

end Grammar

/-- At the end of the input, or before a symbol that is no whitespace. -/
def Config.AtWord (c : Config σ) : Prop :=
  Text.AtWord c.cursor.ahead

theorem Config.AtWord.of_offset_eq {c d : Config σ} (hc : c.AtWord)
    (honward : c.cursor.Onward d.cursor) (hoffset : d.cursor.offset = c.cursor.offset) :
    d.AtWord := by
  rw [AtWord, honward.eq_of_offset_eq hoffset]
  exact hc

theorem Cursor.atWord_skipBlanks (c : Cursor) :
    Text.AtWord (c.skipWhile Unicode.isBlank).ahead := by
  rw [ahead_skipWhile]
  exact Text.atWord_dropWhile _

namespace Outcome

/-- If the run has matched, it has stopped where no whitespace follows. -/
def StopsAtWord (o : Outcome σ) : Prop :=
  o.verdict = .matched → o.config.AtWord

theorem StopsAtWord.of_not_matched {o : Outcome σ} (h : o.verdict ≠ .matched) : o.StopsAtWord :=
  fun hmatched => absurd hmatched h

theorem stopsAtWord_pastBlanks (o : Outcome σ) : o.pastBlanks.StopsAtWord := by
  by_cases h : o.verdict = .matched
  · rw [pastBlanks_of_matched h]
    exact fun _ => o.config.cursor.atWord_skipBlanks
  · rw [pastBlanks_of_not_matched h]
    exact .of_not_matched h

end Outcome

/-- Computations that are the same, with a result of which `P` holds. -/
abbrev SameWith (P : α → Prop) : Except Stop α → Except Stop α → Prop :=
  EndsAlike fun a b => a = b ∧ P b

namespace SameWith

variable {P : α → Prop} {Q : β → Prop} {r' r : Except Stop α}

theorem of_ends (h : ∀ a, r = .ok a → P a) : SameWith P r r :=
  .of_eq fun a ha => ⟨rfl, h a ha⟩

theorem eq (h : SameWith P r' r) : r' = r := by
  cases h with
  | ok h => rw [h.1]
  | stop stop => rfl

theorem bind {f' f : α → Except Stop β} (h : SameWith P r' r)
    (hf : ∀ a, r = .ok a → P a → SameWith Q (f' a) (f a)) :
    SameWith Q (r' >>= f') (r >>= f) := by
  refine EndsAlike.bind h fun b a _ ha hab => ?_
  obtain ⟨rfl, hP⟩ := hab
  exact hf b ha hP

end SameWith

/-- Steps that are the same where they begin before no whitespace, and then stop before none if they
match. -/
def Step.SameAtWords (step' step : Step σ) : Prop :=
  ∀ c : Config σ, c.AtWord → SameWith Outcome.StopsAtWord (step' c) (step c)

namespace Environment

open Outcome

variable {env : Environment σ} {c : Config σ} {o : Outcome σ} {next' next step' step : Step σ}
  {start : Position}

theorem sameAtWord_raiseFor (kind : ErrorKind) (message : String) (g : Grammar σ)
    (start : Position) (c : Config σ) :
    SameWith StopsAtWord (env.raiseFor kind message g start c)
      (env.raiseFor kind message g start c) := by
  refine SameWith.of_ends fun o ho => .of_not_matched ?_
  exact (env.matchesUpTo_raiseFor (Q := fun _ => False) kind message g start c).of_eq_ok ho

theorem sameAtWord_raiseUndefined (c : Config σ) :
    SameWith StopsAtWord (env.raiseUndefined c) (env.raiseUndefined c) := by
  refine SameWith.of_ends fun o ho => .of_not_matched ?_
  exact (env.matchesUpTo_raiseUndefined (Q := fun _ => False) c).of_eq_ok ho

theorem sameAtWord_after {r' r : Except Stop (Outcome σ)} (h : SameWith StopsAtWord r' r)
    (earlier : List LogRecord) :
    SameWith StopsAtWord (r'.map (·.after earlier)) (r.map (·.after earlier)) :=
  EndsAlike.map (h.imp fun _ _ _ _ hop => ⟨congrArg _ hop.1, hop.2⟩)

theorem sameAtWord_andThen
    (hnext : o.verdict = .matched → SameWith StopsAtWord (next' o.config) (next o.config)) :
    SameWith StopsAtWord (o.andThen next') (o.andThen next) := by
  by_cases hmatched : o.verdict = .matched
  · rw [andThen_of_matched hmatched, andThen_of_matched hmatched]
    exact sameAtWord_after (hnext hmatched) o.records
  · rw [andThen_of_not_matched hmatched, andThen_of_not_matched hmatched]
    exact .ok ⟨rfl, .of_not_matched hmatched⟩

/-- What is tried after a mismatch is tried from where the mismatch began. -/
theorem sameAtWord_orElse (ho : o.StopsAtWord)
    (hnext : o.config.cursor.offset = start.offset →
      SameWith StopsAtWord (next' o.config) (next o.config))
    (message : String) (tried : Grammar σ) :
    SameWith StopsAtWord (env.orElse message tried start o next')
      (env.orElse message tried start o next) := by
  unfold orElse
  split
  · split
    · exact sameAtWord_after (sameAtWord_raiseFor _ _ _ _ _) o.records
    · exact sameAtWord_after (hnext (not_not.1 ‹_›)) o.records
  · exact .ok ⟨rfl, ho⟩

theorem sameAtWord_iterate (hstep : step'.SameAtWords step)
    (horderly : ∀ c, Orderly c.cursor (step c)) (blamed : Grammar σ) (n owed : Nat) :
    Step.SameAtWords (env.iterate blamed step' n owed) (env.iterate blamed step n owed) := by
  intro c hc
  induction n generalizing owed c with
  | zero => exact .stop _
  | succ n ih =>
      rw [iterate, iterate]
      refine (hstep c hc).bind fun o ho hstops => ?_
      have honward := (horderly c).of_eq_ok ho
      split
      · have hword : o.config.AtWord := hstops ‹_›
        split
        · exact .ok ⟨rfl, fun _ => hword⟩
        · exact sameAtWord_after (ih (owed - 1) o.config hword) o.records
      · refine sameAtWord_orElse hstops (fun hoffset => ?_) _ _
        have hword : o.config.AtWord := hc.of_offset_eq honward hoffset
        split
        · exact .ok ⟨rfl, fun _ => hword⟩
        · exact .ok ⟨rfl, fun _ => hword⟩

theorem sameAtWord_act (hc : c.AtWord) (g : Grammar σ) (kind : Kind) (action : Action σ)
    (args : Arguments) (start : Position) :
    SameWith StopsAtWord (env.act g kind action args start c)
      (env.act g kind action args start c) := by
  unfold act
  dsimp only
  split
  · exact .ok ⟨rfl, fun _ => hc⟩
  · refine SameWith.of_ends fun o ho => .of_not_matched ?_
    obtain ⟨expectation, -, hraise⟩ := exists_of_bind_eq_ok ho
    exact (env.matchesUpTo_raise (Q := fun _ => False) _ _ _ _ _ _).of_eq_ok hraise

section Speculation

variable (honward : c.cursor.checkpoint.Onward o.config.cursor) (ho : o.StopsAtWord)

include honward ho

theorem sameAtWord_settle (g : Grammar σ) (restores : Bool) :
    SameWith StopsAtWord (env.settle g restores c o) (env.settle g restores c o) := by
  by_cases hmatched : o.verdict = .matched
  · rw [env.settle_of_matched honward hmatched]
    exact .ok ⟨rfl, ho⟩
  · rw [env.settle_of_not_matched honward hmatched]
    exact EndsAlike.map (.of_eq fun _ _ => ⟨rfl, .of_not_matched hmatched⟩)

theorem sameAtWord_settleExcept (mayAct : Bool) (forbidden : Value) :
    SameWith StopsAtWord (env.settleExcept mayAct forbidden c o)
      (env.settleExcept mayAct forbidden c o) := by
  by_cases hmatched : o.verdict = .matched
  · by_cases hslot : o.config.slot = some forbidden
    · rw [env.settleExcept_of_forbidden honward hmatched hslot]
      exact .ok ⟨rfl, .of_not_matched (by simp)⟩
    · rw [env.settleExcept_of_not_forbidden honward hmatched hslot]
      exact .ok ⟨rfl, ho⟩
  · rw [env.settleExcept_of_not_matched honward hmatched]
    exact .ok ⟨rfl, .of_not_matched hmatched⟩

end Speculation

section Parts

variable {run' run : Grammar σ → Step σ} {parts : List (Kind × Grammar σ)}

theorem sameByPart_runInto {g : Grammar σ} (hg : (run' g).SameAtWords (run g)) (kind : Kind)
    (hc : c.AtWord) :
    SameWith (fun p => p.2.StopsAtWord) (runInto (run' g) kind c) (runInto (run g) kind c) := by
  refine (hg { c with slot := some kind.default } hc).bind fun o _ hstops => ?_
  exact .ok ⟨rfl, hstops⟩

theorem sameByPart_runAll (hparts : ∀ part ∈ parts, (run' part.2).SameAtWords (run part.2))
    (hc : c.AtWord) :
    SameWith (fun p => p.2.StopsAtWord) (runAll run' parts c) (runAll run parts c) := by
  induction parts generalizing c with
  | nil => exact .ok ⟨rfl, fun _ => hc⟩
  | cons part parts ih =>
      obtain ⟨kind, g⟩ := part
      obtain ⟨hfirst, hrest⟩ := List.forall_mem_cons.1 hparts
      rw [runAll, runAll]
      refine (sameByPart_runInto hfirst kind hc).bind fun p _ hstops => ?_
      obtain ⟨v, o⟩ := p
      dsimp only
      split
      · refine (ih hrest (hstops ‹_›)).bind fun p _ hstops => ?_
        exact .ok ⟨rfl, hstops⟩
      · exact .ok ⟨rfl, .of_not_matched ‹_›⟩

theorem sameByPart_runAny (horderly : ∀ g c, Orderly c.cursor (run g c))
    (hparts : ∀ part ∈ parts, (run' part.2).SameAtWords (run part.2)) (number : Nat)
    (hc : c.AtWord) (hstart : c.cursor.offset = start.offset) :
    SameWith (fun p => p.2.StopsAtWord) (env.runAny run' start number parts c)
      (env.runAny run start number parts c) := by
  induction parts generalizing number c with
  | nil => exact .ok ⟨rfl, fun _ => hc⟩
  | cons part parts ih =>
      obtain ⟨kind, g⟩ := part
      obtain ⟨hfirst, hrest⟩ := List.forall_mem_cons.1 hparts
      rw [runAny, runAny]
      refine (sameByPart_runInto hfirst kind hc).bind fun p hp hstops => ?_
      have honward := (orderly_runInto (horderly g) kind c).of_eq_ok hp
      obtain ⟨v, o⟩ := p
      dsimp only
      split
      · exact .ok ⟨rfl, hstops⟩
      · exact .ok ⟨rfl, hstops⟩
      · split
        · refine (sameAtWord_raiseFor _ _ _ _ _).bind fun p _ hstops => ?_
          exact .ok ⟨rfl, hstops⟩
        · have hstayed : o.config.cursor.offset = start.offset := not_not.1 ‹_›
          have hword : o.config.AtWord := hc.of_offset_eq honward (hstayed.trans hstart.symm)
          refine (ih hrest (number + 1) hword hstayed).bind fun p _ hstops => ?_
          exact .ok ⟨rfl, hstops⟩

end Parts

section Levels

variable {rules : RuleName → Prop} {n : Nat} {run' : Grammar σ → Step σ} {g h : Grammar σ}
  {d : Config σ}

/-- What a run may ask for if tokens start where no whitespace follows. What skips the whitespace
before the first token has no token in it. -/
def MayRun (env : Environment σ) (rules : RuleName → Prop) (g : Grammar σ) (c : Config σ) : Prop :=
  (g.Tokenized env rules ∧ c.AtWord) ∨ g = .many (.accept (.ofClass .space)) ∨
    g = .accept (.ofClass .space)

variable (hrules : ∀ name body, rules name → env.store.body? name = some body →
  body.Tokenized env rules)

include hrules

/-- One level of a run, where what it asks for is the same if asked for where tokens may start. -/
theorem sameAtWords_runLevel
    (hrun : ∀ g, g.Tokenized env rules → (run' g).SameAtWords (env.run n g))
    (hblanks : run' (.many (.accept (.ofClass .space))) =
      env.run n (.many (.accept (.ofClass .space))))
    (hg : g.Tokenized env rules) (hnot : g.isToken = false) :
    (env.runLevel run' n g).SameAtWords (env.runLevel (env.run n) n g) := by
  intro c hc
  have horderly (g : Grammar σ) (c : Config σ) := env.orderly_run n g c
  cases hg with
  | token => cases hnot
  | firstToken =>
      have hsame : env.runLevel run' n .firstToken c = env.run (n + 1) .firstToken c := by
        rw [run, runLevel, runLevel, hblanks]
      rw [hsame, ← run]
      refine SameWith.of_ends fun o ho => ?_
      obtain rfl := Yields.unique ⟨n + 1, ho⟩ (env.yields_firstToken c)
      exact fun _ => c.cursor.atWord_skipBlanks
  | resting hreads hrests =>
      have hsame : env.runLevel run' n g c = env.run (n + 1) g c := by
        cases g <;> first | rfl | exact hreads.elim
      rw [hsame, ← run]
      refine SameWith.of_ends fun o ho _ => ?_
      have honward := (env.orderly_run (n + 1) g c).of_eq_ok ho
      exact hc.of_offset_eq honward (hrests c o ⟨n + 1, ho⟩)
  | succeed => exact .ok ⟨rfl, fun _ => hc⟩
  | fail => exact .ok ⟨rfl, fun _ => hc⟩
  | @sequence a b ha hb =>
      rw [runLevel, runLevel]
      refine (hrun a ha c hc).bind fun o _ hstops => ?_
      exact sameAtWord_andThen fun hmatched => hrun b hb _ (hstops hmatched)
  | @choice a b ha hb =>
      rw [runLevel, runLevel]
      refine (hrun a ha c hc).bind fun o ho hstops => ?_
      -- The first rule may have stopped anywhere, but then the second one is not run.
      have honward := (horderly a c).of_eq_ok ho
      exact sameAtWord_orElse hstops
        (fun hoffset => hrun b hb _ (hc.of_offset_eq honward hoffset)) _ _
  | @repetition atLeast item hitem =>
      rw [runLevel, runLevel]
      exact sameAtWord_iterate (hrun item hitem) (horderly item) item n atLeast c hc
  | @option item hitem =>
      rw [runLevel, runLevel]
      refine (hrun item hitem c hc).bind fun o ho hstops => ?_
      have honward := (horderly item c).of_eq_ok ho
      exact sameAtWord_orElse hstops
        (fun hoffset => .ok ⟨rfl, fun _ => hc.of_offset_eq honward hoffset⟩) _ _
  | @sepBy item separator hitem hseparator =>
      rw [runLevel, runLevel]
      refine (hrun item hitem c hc).bind fun o _ hstops => ?_
      refine sameAtWord_andThen fun hmatched => ?_
      refine sameAtWord_iterate (fun c hc => ?_) (env.orderly_separated n item separator)
        _ n 0 _ (hstops hmatched)
      refine (hrun separator hseparator { c with slot := none } hc).bind fun o _ hstops => ?_
      exact sameAtWord_andThen (o := o.withSlot c.slot) fun hmatched =>
        hrun item hitem _ (hstops hmatched)
  | @discard item hitem =>
      rw [runLevel, runLevel]
      refine (hrun item hitem { c with slot := none } hc).bind fun o _ hstops => ?_
      exact .ok ⟨rfl, hstops⟩
  | @except kind item forbidden hitem =>
      rw [runLevel, runLevel]
      have hitem' := hrun item hitem
        { c with cursor := c.cursor.checkpoint, slot := some kind.default } hc
      refine hitem'.bind fun o ho hstops => ?_
      exact sameAtWord_settleExcept ((horderly item _).of_eq_ok ho) hstops _ forbidden
  | @attempt item hitem =>
      rw [runLevel, runLevel]
      have hitem' := hrun item hitem { c with cursor := c.cursor.checkpoint } hc
      refine hitem'.bind fun o ho hstops => ?_
      exact sameAtWord_settle ((horderly item _).of_eq_ok ho) hstops item _
  | @attemptPure item hitem =>
      rw [runLevel, runLevel]
      have hitem' := hrun item hitem { c with cursor := c.cursor.checkpoint } hc
      refine hitem'.bind fun o ho hstops => ?_
      exact sameAtWord_settle ((horderly item _).of_eq_ok ho) hstops item _
  | @strict message item hitem =>
      rw [runLevel, runLevel]
      refine (hrun item hitem c hc).bind fun o _ hstops => ?_
      split
      · exact sameAtWord_after (sameAtWord_raiseFor _ _ _ _ _) o.records
      · exact .ok ⟨rfl, hstops⟩
  | @trace label item hitem =>
      rw [runLevel, runLevel]
      refine (hrun item hitem c hc).bind fun o _ hstops => ?_
      have hrecords : SameWith (fun _ => True) (env.traceRecords label c.cursor.position o)
          (env.traceRecords label c.cursor.position o) := .of_ends fun _ _ => trivial
      exact hrecords.bind fun _ _ _ => .ok ⟨rfl, hstops⟩
  | @shared item hitem | @reference name item hitem | @define name item hitem
  | @rename name rank item hitem => exact hrun item hitem c hc
  | @all kind action parts hparts =>
      rw [runLevel, runLevel]
      refine (sameByPart_runAll (fun part hmem => hrun part.2 (hparts part hmem)) hc).bind
        fun p _ hstops => ?_
      exact sameAtWord_andThen fun hmatched => sameAtWord_act (hstops hmatched) _ _ _ _ _
  | @any kind action parts hparts =>
      rw [runLevel, runLevel]
      refine (sameByPart_runAny horderly (fun part hmem => hrun part.2 (hparts part hmem)) 0 hc
        rfl).bind fun p _ hstops => ?_
      split
      · exact sameAtWord_andThen fun hmatched => sameAtWord_act (hstops hmatched) _ _ _ _ _
      · exact .ok ⟨rfl, hstops⟩
  | @handle slot hslot =>
      rw [runLevel, runLevel]
      cases hbody : env.store.handle? slot with
      | none => exact sameAtWord_raiseUndefined c
      | some body => exact hrun body (hrules _ body hslot hbody) c hc
  | @fixed hold name rule hrule =>
      rw [runLevel, runLevel]
      cases hbody : env.store.fixed? rule with
      | none => exact sameAtWord_raiseUndefined c
      | some body => exact hrun body (hrules _ body hrule hbody) c hc

/-- A run that is begun where a token may start matches up to where a token may start. -/
theorem sameAtWords_run (n : Nat) (hg : g.Tokenized env rules) :
    (env.run n g).SameAtWords (env.run n g) := by
  induction n generalizing g with
  | zero => exact fun c _ => .stop _
  | succ n ih =>
      intro c hc
      cases htoken : g.isToken with
      | false =>
          rw [run]
          exact sameAtWords_runLevel hrules (fun g hg => ih hg) rfl hg htoken c hc
      | true =>
          obtain ⟨item, rfl⟩ := Grammar.exists_of_isToken htoken
          rw [run_token]
          refine SameWith.of_ends fun o ho => ?_
          obtain ⟨p, -, rfl⟩ := exists_of_map_eq_ok ho
          exact p.stopsAtWord_pastBlanks

theorem mayRun_of_runsPart (hg : env.MayRun rules g c) (hnot : g.isToken = false)
    (hpart : env.RunsPart n g c h d) : env.MayRun rules h d := by
  refine RunsPart.of_determined (P := env.MayRun rules) (fun run' hrun' => ?_) hpart
  have hblanks : run' (.many (.accept (.ofClass .space))) =
      env.run n (.many (.accept (.ofClass .space))) :=
    funext fun d => hrun' _ d (.inr (.inl rfl))
  have hblank : run' (.accept (.ofClass .space)) = env.run n (.accept (.ofClass .space)) :=
    funext fun d => hrun' _ d (.inr (.inr rfl))
  rw [run]
  rcases hg with ⟨hg, hc⟩ | rfl | rfl
  · have hsame (g : Grammar σ) (hg : g.Tokenized env rules) :
        (run' g).SameAtWords (env.run n g) := by
      intro d hd
      rw [hrun' g d (.inl ⟨hg, hd⟩)]
      exact sameAtWords_run hrules n hg d hd
    exact (sameAtWords_runLevel hrules hsame hblanks hg hnot c hc).eq
  · rw [runLevel, runLevel, hblank]
  · rfl

theorem StartsToken.atWord {item : Grammar σ} {e : Config σ}
    (hstarts : env.StartsToken item e n g c) (hg : env.MayRun rules g c) : e.AtWord := by
  induction hstarts with
  | here =>
      rcases hg with ⟨-, hc⟩ | hblanks | hblank
      · exact hc
      · cases hblanks
      · cases hblank
  | inside hnot hpart _ ih => exact ih (mayRun_of_runsPart hrules hg hnot hpart)

end Levels

/-- A run of a grammar over tokens that is not begun before whitespace starts none of its outermost
tokens before whitespace, however it ends; and it stops before none if it matches. -/
theorem tokens_start_at_words {rules : RuleName → Prop} {g : Grammar σ}
    (hrules : ∀ name body, rules name → env.store.body? name = some body →
      body.Tokenized env rules)
    (hg : g.Tokenized env rules) (hc : c.AtWord) :
    (∀ n item d, env.StartsToken item d n g c → d.AtWord) ∧
      ∀ o, env.Yields g c o → o.verdict = .matched → o.config.AtWord := by
  constructor
  · intro n item d hstarts
    exact hstarts.atWord hrules (.inl ⟨hg, hc⟩)
  · rintro o ⟨n, ho⟩ hmatched
    obtain ⟨o', ho', rfl, hstops⟩ := (sameAtWords_run hrules n hg c hc).exists_of_right ho
    exact hstops hmatched

/-- A mark that is missing here one blank behind its symbol: what looks for it stops in the middle
of the whitespace, and the token tried instead starts where the first one started. -/
theorem tokens_start_at_words_mark :
    let marked : Grammar Nat := .sequence (.literal "x") (.sequence (.literal " ") (.literal "!"))
    let comma : Grammar Nat := .token (.literal ",")
    let rule : Grammar Nat := .choice (.attempt (.token marked)) (.token (.literal "x"))
    let g : Grammar Nat := .sequence comma (.handle ⟨0, 0⟩)
    let env : Environment Nat := ⟨⟨⟨[some [some (.rule rule)]]⟩, []⟩, .off⟩
    let rules : RuleName → Prop := (· = .slot ⟨0, 0⟩)
    let c : Config Nat := ⟨.ofInput [',', '\n', 'x', ' ', ' ', ','], none, 0⟩
    let d : Config Nat := { c with cursor := c.cursor.advanceTo 2 }
    let o : Outcome Nat := Config.matched { c with cursor := c.cursor.advanceTo 5 }
    (∀ name body, rules name → env.store.body? name = some body → body.Tokenized env rules) ∧
      g.Tokenized env rules ∧ c.AtWord ∧ env.StartsToken (.literal "x") d 8 g c ∧ d.AtWord ∧
        env.Yields g c o ∧ o.verdict = .matched ∧ o.config.AtWord := by
  intro marked comma rule g env rules c d o
  have hrules : ∀ name body, rules name → env.store.body? name = some body →
      body.Tokenized env rules := by
    rintro name body rfl hbody
    obtain rfl : rule = body := Option.some.inj hbody
    exact .choice (.attempt (.token marked)) (.token (.literal "x"))
  have hg : g.Tokenized env rules := .sequence (.token _) (.handle rfl)
  have hc : c.AtWord := by
    rintro s ⟨rfl⟩
    rfl
  have hcomma : env.run 7 comma c = .ok d.matched := by
    dsimp only [comma, env, c, d]
    rfl
  have hmarked : env.run 5 (.attempt (.token marked)) d = .ok d.mismatched := by
    dsimp only [marked, env, c, d]
    rfl
  have ho : env.Yields g c o := by
    dsimp only [marked, comma, rule, g, env, c, o]
    exact ⟨8, rfl⟩
  have hrule : env.RunsPart 6 (.handle ⟨0, 0⟩) d rule d := fun _ _ hstop _ => hstop
  have hstarts : env.StartsToken (.literal "x") d 8 g c :=
    .inside rfl (runsPart_sequence_iff.2 (.inr ⟨_, hcomma, rfl, rfl, rfl⟩)) <|
      .inside rfl hrule <|
        .inside rfl (runsPart_choice_iff.2 (.inr ⟨_, hmarked, ⟨rfl, rfl⟩, rfl, rfl⟩)) .here
  obtain ⟨htokens, hends⟩ := tokens_start_at_words hrules hg hc
  exact ⟨hrules, hg, hc, hstarts, htokens _ _ _ hstarts, ho, rfl, hends o ho rfl⟩

end Environment

end ParserAlgebra
