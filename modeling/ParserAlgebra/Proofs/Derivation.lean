import ParserAlgebra.Proofs.Composition
import ParserAlgebra.Proofs.Recognition

/-!
# Matches are derivations

Read as a context-free grammar, without an order of the alternatives and without greed, a grammar
derives texts between offsets of an input. A run is one way to look for such a text: if it matches,
the grammar derives what was passed. So nothing is matched that the written form of a grammar does
not describe.
-/

namespace ParserAlgebra

variable {σ : Type}

/-- A predicate accepts the one symbol between two offsets of an input, or the end of the input. -/
inductive Predicate.Spans (p : Predicate) (input : List Char) : Nat → Nat → Prop
  | symbol {i j : Nat} {s : Char} (htext : Text.slice? i j input = some [s])
      (hs : p.accepts (some s) = true) : p.Spans input i j
  | endOfInput {i : Nat} (hi : i = Text.byteLength input) (hend : p.accepts none = true) :
      p.Spans input i i

/-- The grammar that derives what a grammar derives, where a grammar only says what else is done
with that, or gives it a name. -/
def Store.inner? (store : Store σ) : Grammar σ → Option (Grammar σ)
  | .discard g | .except _ g _ | .attempt g | .attemptPure g | .strict _ g | .trace _ g
  | .shared g | .reference _ g | .define _ g | .rename _ _ g => some g
  | .handle slot => store.handle? slot
  | .fixed _ _ rule => store.fixed? rule
  | _ => none

/-- A grammar derives the text between two offsets of an input. Rules derive what finitely many
steps through their bodies give. -/
inductive Store.Derives (store : Store σ) (input : List Char) : Grammar σ → Nat → Nat → Prop
  | accept {p : Predicate} {i j : Nat} (hp : p.Spans input i j) :
      store.Derives input (.accept p) i j
  | expect {p : Predicate} {i j : Nat} (hp : p.Spans input i j) :
      store.Derives input (.expect p) i j
  | literal {text : String} {i j : Nat} (htext : Text.slice? i j input = some text.toList) :
      store.Derives input (.literal text) i j
  /-- Some path through the program takes the text; assertions look at what is around it. -/
  | pattern {source : String} {matcher : Regex.Matcher} {i j : Nat} {before text after : List Char}
      (hbefore : Text.slice? 0 i input = some before) (htext : Text.slice? i j input = some text)
      (hafter : Text.dropBytes? j input = some after)
      (htakes : matcher.program.Takes before.getLast? matcher.program.start text after) :
      store.Derives input (.pattern source matcher) i j
  | succeed {i : Nat} : store.Derives input .succeed i i
  | sequence {a b : Grammar σ} {i k j : Nat} (ha : store.Derives input a i k)
      (hb : store.Derives input b k j) : store.Derives input (.sequence a b) i j
  | choiceFirst {a b : Grammar σ} {i j : Nat} (ha : store.Derives input a i j) :
      store.Derives input (.choice a b) i j
  | choiceSecond {a b : Grammar σ} {i j : Nat} (hb : store.Derives input b i j) :
      store.Derives input (.choice a b) i j
  | repetitionNil {item : Grammar σ} {i : Nat} : store.Derives input (.repetition 0 item) i i
  | repetitionCons {atLeast : Nat} {item : Grammar σ} {i k j : Nat}
      (hitem : store.Derives input item i k)
      (hrest : store.Derives input (.repetition (atLeast - 1) item) k j) :
      store.Derives input (.repetition atLeast item) i j
  | optionNone {item : Grammar σ} {i : Nat} : store.Derives input (.option item) i i
  | optionSome {item : Grammar σ} {i j : Nat} (hitem : store.Derives input item i j) :
      store.Derives input (.option item) i j
  | sepByFirst {item separator : Grammar σ} {i j : Nat} (hitem : store.Derives input item i j) :
      store.Derives input (.sepBy item separator) i j
  | sepByMore {item separator : Grammar σ} {i k m j : Nat}
      (hfront : store.Derives input (.sepBy item separator) i k)
      (hseparator : store.Derives input separator k m) (hitem : store.Derives input item m j) :
      store.Derives input (.sepBy item separator) i j
  | token {item : Grammar σ} {i k j : Nat} {blanks : List Char}
      (hitem : store.Derives input item i k) (htext : Text.slice? k j input = some blanks)
      (hblanks : ∀ s ∈ blanks, Unicode.isBlank s = true) : store.Derives input (.token item) i j
  | allNil {kind : Kind} {action : Action σ} {i : Nat} :
      store.Derives input (.all kind action []) i i
  | allCons {kind : Kind} {action : Action σ} {part : Kind × Grammar σ}
      {parts : List (Kind × Grammar σ)} {i k j : Nat} (hpart : store.Derives input part.2 i k)
      (hparts : store.Derives input (.all kind action parts) k j) :
      store.Derives input (.all kind action (part :: parts)) i j
  | any {kind : Kind} {action : Action σ} {part : Kind × Grammar σ}
      {parts : List (Kind × Grammar σ)} {i j : Nat} (hmem : part ∈ parts)
      (hpart : store.Derives input part.2 i j) : store.Derives input (.any kind action parts) i j
  | inner {g body : Grammar σ} {i j : Nat} (hg : store.inner? g = some body)
      (hbody : store.Derives input body i j) : store.Derives input g i j

namespace Store.Derives

variable {store : Store σ} {input : List Char} {i j : Nat}

theorem any_cons {kind : Kind} {action : Action σ} {part : Kind × Grammar σ}
    {parts : List (Kind × Grammar σ)} (h : store.Derives input (.any kind action parts) i j) :
    store.Derives input (.any kind action (part :: parts)) i j := by
  cases h with
  | any hmem hpart => exact .any (List.mem_cons_of_mem part hmem) hpart
  | inner hg hbody => cases hg

end Store.Derives

namespace Store

variable {store : Store σ} {input : List Char} {i j : Nat}

theorem Derives.exists_blanks {g : Grammar σ} (h : store.Derives input g i j)
    (hg : g = .many (.accept (.ofClass .space))) (hi : ∃ ahead, Text.dropBytes? i input = some ahead) :
    ∃ blanks, Text.slice? i j input = some blanks ∧ ∀ s ∈ blanks, Unicode.isBlank s = true := by
  induction h with
  | repetitionNil =>
      obtain ⟨ahead, hdrop⟩ := hi
      exact ⟨[], by simp [Text.slice?, hdrop], fun _ h => nomatch h⟩
  | repetitionCons hitem hrest ihitem ihrest =>
      obtain ⟨rfl, rfl⟩ := Grammar.repetition.inj hg
      cases hitem with
      | accept hp =>
          cases hp with
          | @symbol _ s htext hs =>
              obtain ⟨blanks, hblanks, hall⟩ := ihrest rfl (Text.exists_dropBytes?_of_slice? htext)
              refine ⟨s :: blanks, Text.slice?_append htext hblanks, ?_⟩
              exact List.forall_mem_cons.2 ⟨hs, hall⟩
          | endOfInput hi hend => cases hend
      | inner hg hbody => cases hg
  | inner hg' hbody ih =>
      subst hg
      cases hg'
  | _ => cases hg

theorem derives_blanks {blanks : List Char} (hblanks : ∀ s ∈ blanks, Unicode.isBlank s = true)
    (htext : Text.slice? i j input = some blanks) :
    store.Derives input (.many (.accept (.ofClass .space))) i j := by
  induction blanks generalizing i with
  | nil =>
      obtain ⟨before, after, hinput, rfl, rfl⟩ := Text.slice?_eq_some_iff.1 htext
      rw [List.append_nil]
      exact .repetitionNil
  | cons s blanks ih =>
      obtain ⟨hs, hall⟩ := List.forall_mem_cons.1 hblanks
      obtain ⟨before, after, hinput, rfl, rfl⟩ := Text.slice?_eq_some_iff.1 htext
      have hfirst : Text.slice? (Text.byteLength before) (Text.byteLength (before ++ [s])) input =
          some [s] := Text.slice?_eq_some_iff.2 ⟨before, blanks ++ after, hinput, rfl, rfl⟩
      have hinput' : input = (before ++ [s]) ++ (blanks ++ after) := by simp [hinput]
      have hrest : Text.slice? (Text.byteLength (before ++ [s]))
          (Text.byteLength (before ++ s :: blanks)) input = some blanks :=
        Text.slice?_eq_some_iff.2 ⟨before ++ [s], after, hinput', rfl, by simp⟩
      exact .repetitionCons (.accept (.symbol hfirst hs)) (ih hall hrest)

/-- What stands before the first token is whitespace and nothing else. -/
theorem derives_firstToken_iff (hi : ∃ ahead, Text.dropBytes? i input = some ahead) :
    store.Derives input .firstToken i j ↔
      ∃ blanks, Text.slice? i j input = some blanks ∧ ∀ s ∈ blanks, Unicode.isBlank s = true := by
  constructor
  · intro h
    cases h with
    | inner hg hbody =>
        obtain rfl := Option.some.inj hg
        exact hbody.exists_blanks rfl hi
  · rintro ⟨blanks, htext, hblanks⟩
    exact .inner rfl (derives_blanks hblanks htext)

end Store

theorem Place.exists_passed_skipWhile (test : Char → Bool) (position : Position) (cs : List Char) :
    ∃ passed, cs = passed ++ (skipWhile test position cs).ahead ∧ ∀ s ∈ passed, test s = true := by
  induction cs generalizing position with
  | nil => exact ⟨[], rfl, fun _ h => nomatch h⟩
  | cons s cs ih =>
      rw [skipWhile_cons]
      split
      · obtain ⟨passed, hcs, hpassed⟩ := ih (position.past s)
        refine ⟨s :: passed, congrArg (s :: ·) hcs, ?_⟩
        exact List.forall_mem_cons.2 ⟨‹_›, hpassed⟩
      · exact ⟨[], rfl, fun _ h => nomatch h⟩

namespace Cursor.LiesIn

variable {input : List Char} {c : Cursor} (hc : c.LiesIn input)

include hc

/-- What has been passed since the beginning of the input ends with the symbol before the cursor. -/
theorem exists_before : ∃ before, Text.slice? 0 c.offset input = some before ∧
    before.getLast? = c.before? := by
  obtain ⟨before, hinput, hoffset⟩ := hc.exists_append
  refine ⟨before, ?_, ?_⟩
  · rw [hoffset, hinput]
    simp [Text.slice?, Text.takeBytes?_append]
  · rw [before?, hc.input_eq, hinput]
    simp

theorem offset_of_ahead_nil (hahead : c.ahead = []) : c.offset = Text.byteLength input := by
  obtain ⟨before, hinput, hoffset⟩ := hc.exists_append
  rw [hoffset, hinput, hahead, List.append_nil]

end Cursor.LiesIn

/-- If a computation ends with a match, it is at an offset that satisfies `Q`. -/
abbrev MatchesUpTo (Q : Nat → Prop) (r : Except Stop (Outcome σ)) : Prop :=
  Ends True (fun o => o.verdict = .matched → Q o.config.cursor.offset) r

namespace Environment

variable (env : Environment σ) {Q : Nat → Prop} {c : Config σ} {o : Outcome σ} {next : Step σ}

theorem matchesUpTo_raise (kind : ErrorKind) (message : String) (expectation : Expectation)
    (start reported : Position) (c : Config σ) :
    MatchesUpTo Q (env.raise kind message expectation start reported c) :=
  Ends.bind_of_eq fun _ _ h => nomatch h

theorem matchesUpTo_raiseFor (kind : ErrorKind) (message : String) (g : Grammar σ)
    (start : Position) (c : Config σ) : MatchesUpTo Q (env.raiseFor kind message g start c) :=
  Ends.bind_of_eq fun _ _ => env.matchesUpTo_raise _ _ _ _ _ c

theorem matchesUpTo_raiseUndefined (c : Config σ) : MatchesUpTo Q (env.raiseUndefined c) :=
  env.matchesUpTo_raise _ _ _ _ _ c

theorem matchesUpTo_andThen
    (hnext : o.verdict = .matched → MatchesUpTo Q (next o.config)) :
    MatchesUpTo Q (o.andThen next) := by
  by_cases hmatched : o.verdict = .matched
  · rw [Outcome.andThen_of_matched hmatched]
    exact Ends.map (hnext hmatched)
  · rw [Outcome.andThen_of_not_matched hmatched]
    exact fun h => absurd h hmatched

/-- What is tried after a mismatch begins where the mismatch began. -/
theorem matchesUpTo_orElse {start : Position}
    (ho : o.verdict = .matched → Q o.config.cursor.offset)
    (hnext : o.config.cursor.offset = start.offset → MatchesUpTo Q (next o.config))
    (message : String) (tried : Grammar σ) :
    MatchesUpTo Q (env.orElse message tried start o next) := by
  unfold orElse
  split
  · split
    · exact Ends.map (env.matchesUpTo_raiseFor .consumed message tried start o.config)
    · exact Ends.map (hnext (not_not.1 ‹_›))
  · exact ho

theorem matchesUpTo_act (g : Grammar σ) (kind : Kind) (action : Action σ) (args : Arguments)
    (start : Position) (hc : Q c.cursor.offset) :
    MatchesUpTo Q (env.act g kind action args start c) := by
  unfold act
  dsimp only
  split
  · exact fun _ => hc
  · exact Ends.bind_of_eq fun _ _ => env.matchesUpTo_raise _ _ _ _ _ _

section Speculation

variable {forbidden : Value} (honward : c.cursor.checkpoint.Onward o.config.cursor)
  (ho : o.verdict = .matched → Q o.config.cursor.offset)

include honward ho

theorem matchesUpTo_settle (g : Grammar σ) (restores : Bool) :
    MatchesUpTo Q (env.settle g restores c o) := by
  by_cases hmatched : o.verdict = .matched
  · rw [env.settle_of_matched honward hmatched]
    exact ho
  · rw [env.settle_of_not_matched honward hmatched]
    have hnote := env.ends_backtrackNote True g c o
    exact Ends.map (Ends.imp hnote id fun _ _ h => absurd h hmatched)

theorem matchesUpTo_settleExcept (mayAct : Bool) :
    MatchesUpTo Q (env.settleExcept mayAct forbidden c o) := by
  by_cases hmatched : o.verdict = .matched
  · by_cases hslot : o.config.slot = some forbidden
    · rw [env.settleExcept_of_forbidden honward hmatched hslot]
      exact fun h => nomatch h
    · rw [env.settleExcept_of_not_forbidden honward hmatched hslot]
      exact ho
  · rw [env.settleExcept_of_not_matched honward hmatched]
    exact fun h => absurd h hmatched

end Speculation

/-- Iterations are put together by `P`, of which the first argument is the number of iterations that
are owed; `S` is what a single one is. -/
theorem matchesUpTo_iterate {input : List Char} {step : Step σ} {S : Nat → Nat → Prop}
    {P : Nat → Nat → Nat → Prop} (hstop : ∀ i, P 0 i i)
    (hmore : ∀ owed i k j, S i k → P (owed - 1) k j → P owed i j)
    (horderly : ∀ c, Orderly c.cursor (step c))
    (hstep : ∀ c : Config σ, c.cursor.LiesIn input → MatchesUpTo (S c.cursor.offset) (step c))
    (blamed : Grammar σ) (n owed : Nat) (c : Config σ) (hc : c.cursor.LiesIn input) :
    MatchesUpTo (P owed c.cursor.offset) (env.iterate blamed step n owed c) := by
  induction n generalizing owed c with
  | zero => trivial
  | succ n ih =>
      rw [iterate]
      refine Ends.bind_of_eq fun o ho => ?_
      have honward : c.cursor.Onward o.config.cursor := (horderly c).of_eq_ok ho
      have hspan := (hstep c hc).of_eq_ok ho
      split
      · have hfirst : S c.cursor.offset o.config.cursor.offset := hspan ‹_›
        split
        · intro hverdict
          have howed : owed ≤ 1 := by
            by_contra hmany
            rw [if_neg hmany] at hverdict
            cases hverdict
          have hnone : owed - 1 = 0 := Nat.sub_eq_zero_of_le howed
          exact hmore owed _ _ _ hfirst (hnone ▸ hstop _)
        · have hrest := ih (owed - 1) o.config (hc.onward honward)
          exact Ends.map (Ends.imp hrest id fun _ h hverdict =>
            hmore owed _ _ _ hfirst (h hverdict))
      · refine env.matchesUpTo_orElse (fun h => absurd h ‹_›) (fun hstayed => ?_) _ _
        have hoffset : o.config.cursor.offset = c.cursor.offset := hstayed
        cases owed with
        | zero => exact fun _ => hoffset ▸ hstop _
        | succ owed =>
            intro h
            cases h

section Parts

variable {input : List Char} {run : Grammar σ → Step σ}
  (horderly : ∀ g c, Orderly c.cursor (run g c))
  (hrun : ∀ (g : Grammar σ) (c : Config σ), c.cursor.LiesIn input →
    MatchesUpTo (env.store.Derives input g c.cursor.offset) (run g c))

include horderly hrun

theorem matchesUpTo_separatorItem {separator item : Grammar σ} (hc : c.cursor.LiesIn input)
    (hQ : ∀ k j, env.store.Derives input separator c.cursor.offset k →
      env.store.Derives input item k j → Q j) :
    MatchesUpTo Q (separated run item separator c) := by
  refine Ends.bind_of_eq fun o ho => ?_
  have honward := (horderly separator { c with slot := none }).of_eq_ok ho
  have hseparator := (hrun separator { c with slot := none } hc).of_eq_ok ho
  refine matchesUpTo_andThen (o := o.withSlot c.slot) fun hmatched => ?_
  have hitem := hrun item (o.withSlot c.slot).config (hc.onward honward)
  exact Ends.imp hitem id fun _ hitem h => hQ _ _ (hseparator hmatched) (hitem h)

theorem derives_runInto (g : Grammar σ) (kind : Kind) (c : Config σ) (hc : c.cursor.LiesIn input) :
    Ends True (fun p => c.cursor.Onward p.2.config.cursor ∧ (p.2.verdict = .matched →
      env.store.Derives input g c.cursor.offset p.2.config.cursor.offset))
      (runInto (run g) kind c) := by
  refine Ends.bind_of_eq fun o ho => ?_
  have honward := (horderly g { c with slot := some kind.default }).of_eq_ok ho
  have hpart := (hrun g { c with slot := some kind.default } hc).of_eq_ok ho
  exact ⟨honward, hpart⟩

theorem derives_runAll (kind : Kind) (action : Action σ) (parts : List (Kind × Grammar σ))
    (c : Config σ) (hc : c.cursor.LiesIn input) :
    Ends True (fun p => p.2.verdict = .matched →
      env.store.Derives input (.all kind action parts) c.cursor.offset p.2.config.cursor.offset)
      (runAll run parts c) := by
  induction parts generalizing c with
  | nil => exact fun _ => .allNil
  | cons part parts ih =>
      obtain ⟨partKind, g⟩ := part
      rw [runAll]
      refine Ends.bind (env.derives_runInto horderly hrun g partKind c hc) fun p hp => ?_
      obtain ⟨v, o⟩ := p
      obtain ⟨honward, hpart⟩ := hp
      dsimp only
      split
      · refine Ends.bind (ih o.config (hc.onward honward)) fun q hparts => ?_
        exact fun h => .allCons (hpart ‹_›) (hparts h)
      · exact fun h => absurd h ‹_›

theorem derives_runAny (kind : Kind) (action : Action σ) (parts : List (Kind × Grammar σ))
    (start : Position) (number : Nat) (c : Config σ) (hc : c.cursor.LiesIn input)
    (hstart : c.cursor.offset = start.offset) :
    Ends True (fun p => p.2.verdict = .matched →
      env.store.Derives input (.any kind action parts) start.offset p.2.config.cursor.offset)
      (env.runAny run start number parts c) := by
  induction parts generalizing number c with
  | nil => exact fun h => nomatch h
  | cons part parts ih =>
      obtain ⟨partKind, g⟩ := part
      rw [runAny]
      refine Ends.bind (env.derives_runInto horderly hrun g partKind c hc) fun p hp => ?_
      obtain ⟨v, o⟩ := p
      obtain ⟨honward, hpart⟩ := hp
      rw [hstart] at hpart
      dsimp only
      split
      · exact fun h => .any List.mem_cons_self (hpart h)
      · exact fun h => .any List.mem_cons_self (hpart h)
      · split
        · have hraise : MatchesUpTo (fun _ => False)
              (env.raiseFor .consumed branchConsumed g start o.config) :=
            env.matchesUpTo_raiseFor _ _ _ _ _
          exact Ends.bind hraise fun e he h => (he h).elim
        · have hstayed : o.config.cursor.offset = start.offset := not_not.1 ‹_›
          refine Ends.bind (ih (number + 1) o.config (hc.onward honward) hstayed) fun q hrest => ?_
          exact fun h => (hrest h).any_cons

end Parts

section Leaves

variable {input : List Char} (hc : c.cursor.LiesIn input)

include hc

theorem spans_takeSymbol {p : Predicate} (hp : p.accepts c.cursor.symbol? = true) :
    p.Spans input c.cursor.offset c.takeSymbol.cursor.offset := by
  cases hahead : c.cursor.ahead with
  | nil =>
      have hsymbol : c.cursor.symbol? = none := congrArg List.head? hahead
      rw [Config.takeSymbol, hsymbol]
      rw [hsymbol] at hp
      exact .endOfInput (hc.offset_of_ahead_nil hahead) hp
  | cons s rest =>
      have hsymbol : c.cursor.symbol? = some s := congrArg List.head? hahead
      rw [hsymbol] at hp
      have hnext : c.takeSymbol.cursor.ahead = rest := by
        rw [Config.takeSymbol_of_ahead hahead]
        rfl
      have hpassed : c.cursor.ahead = [s] ++ c.takeSymbol.cursor.ahead := by
        rw [hahead, hnext]
        rfl
      exact .symbol (hc.slice?_eq c.onward_takeSymbol hpassed) hp

theorem slice?_take {text rest : List Char} (h : text ++ rest = c.cursor.ahead) :
    Text.slice? c.cursor.offset (c.take text).cursor.offset input = some text ∧
      Text.dropBytes? (c.take text).cursor.offset input = some rest := by
  have hahead : (c.take text).cursor.ahead = rest :=
    congrArg Place.ahead (Config.place_take h.symm)
  have honward := c.onward_take text
  refine ⟨hc.slice?_eq honward (by rw [hahead, h]), ?_⟩
  rw [← hahead]
  exact (hc.onward honward).isGenuine.1

theorem slice?_skipWhile (test : Char → Bool) :
    ∃ passed, Text.slice? c.cursor.offset (c.cursor.skipWhile test).offset input = some passed ∧
      ∀ s ∈ passed, test s = true := by
  obtain ⟨passed, hahead, hpassed⟩ :=
    Place.exists_passed_skipWhile test c.cursor.position c.cursor.ahead
  let d : Config σ := { c with cursor := c.cursor.skipWhile test }
  have htext : Text.slice? c.cursor.offset d.cursor.offset input = some passed :=
    hc.slice?_eq (c.cursor.onward_skipWhile test) hahead
  exact ⟨passed, htext, hpassed⟩

end Leaves

/-- Runs that match do so up to where a derivation ends. -/
theorem derives_run {input : List Char} (n : Nat) (g : Grammar σ) (c : Config σ)
    (hc : c.cursor.LiesIn input) :
    MatchesUpTo (env.store.Derives input g c.cursor.offset) (env.run n g c) := by
  -- A derivation grows with the bound of the run, through the bodies of rules.
  induction n generalizing g c with
  | zero => trivial
  | succ n ih =>
      have hinner {body : Grammar σ} (hg : env.store.inner? g = some body) (c : Config σ)
          (hc : c.cursor.LiesIn input) :
          Ends True (fun o => o.verdict = .matched →
            env.store.Derives input g c.cursor.offset o.config.cursor.offset)
            (env.run n body c) :=
        Ends.imp (ih body c hc) id fun o ho hmatched => .inner hg (ho hmatched)
      cases g with
      | accept p =>
          rw [run, runLevel]
          split
          · exact fun _ => .accept (spans_takeSymbol hc ‹_›)
          · intro h
            cases h
      | expect p =>
          rw [run, runLevel]
          split
          · exact fun _ => .expect (spans_takeSymbol hc ‹_›)
          · exact env.matchesUpTo_raiseFor _ _ _ _ _
      | literal s =>
          rw [run, runLevel]
          split
          · obtain ⟨rest, hrest⟩ := List.isPrefixOf_iff_prefix.1 ‹_›
            exact fun _ => .literal (slice?_take hc hrest).1
          · intro h
            cases h
      | pattern source matcher =>
          rw [run, runLevel]
          split
          · rename_i text htext
            obtain ⟨after, hahead, htakes⟩ := matcher.takes_of_matchAhead? htext
            obtain ⟨before, hbefore, hlast⟩ := hc.exists_before
            obtain ⟨hslice, hafter⟩ := slice?_take hc hahead.symm
            rw [← hlast] at htakes
            exact fun _ => .pattern hbefore hslice hafter htakes
          · intro h
            cases h
      | succeed => exact fun _ => .succeed
      | fail =>
          intro h
          cases h
      | sequence a b =>
          rw [run, runLevel]
          refine Ends.bind_of_eq fun o ho => ?_
          have honward := (env.orderly_run n a c).of_eq_ok ho
          have ha := (ih a c hc).of_eq_ok ho
          refine matchesUpTo_andThen fun hmatched => ?_
          exact Ends.imp (ih b o.config (hc.onward honward)) id fun _ hb h =>
            .sequence (ha hmatched) (hb h)
      | choice a b =>
          rw [run, runLevel]
          refine Ends.bind_of_eq fun o ho => ?_
          have honward := (env.orderly_run n a c).of_eq_ok ho
          have ha := (ih a c hc).of_eq_ok ho
          refine env.matchesUpTo_orElse (fun h => .choiceFirst (ha h)) (fun hstayed => ?_) _ _
          have hoffset : o.config.cursor.offset = c.cursor.offset := hstayed
          have hb := ih b o.config (hc.onward honward)
          rw [hoffset] at hb
          exact Ends.imp hb id fun _ hb h => .choiceSecond (hb h)
      | repetition atLeast item =>
          rw [run, runLevel]
          exact env.matchesUpTo_iterate
            (P := fun owed i j => env.store.Derives input (.repetition owed item) i j)
            (fun _ => .repetitionNil) (fun _ _ _ _ hitem hrest => .repetitionCons hitem hrest)
            (env.orderly_run n item) (ih item) item n atLeast c hc
      | option item =>
          rw [run, runLevel]
          refine Ends.bind_of_eq fun o ho => ?_
          have hitem := (ih item c hc).of_eq_ok ho
          refine env.matchesUpTo_orElse (fun h => .optionSome (hitem h)) (fun hstayed => ?_) _ _
          have hoffset : o.config.cursor.offset = c.cursor.offset := hstayed
          intro _
          change env.store.Derives input (.option item) c.cursor.offset o.config.cursor.offset
          rw [hoffset]
          exact .optionNone
      | sepBy item separator =>
          rw [run, runLevel]
          refine Ends.bind_of_eq fun o ho => ?_
          have honward := (env.orderly_run n item c).of_eq_ok ho
          have hfirst := (ih item c hc).of_eq_ok ho
          refine matchesUpTo_andThen fun hmatched => ?_
          refine Ends.imp (env.matchesUpTo_iterate
            (S := fun i j => ∃ k, env.store.Derives input separator i k ∧
              env.store.Derives input item k j)
            (P := fun _ i j => ∀ first, env.store.Derives input (.sepBy item separator) first i →
              env.store.Derives input (.sepBy item separator) first j)
            (fun _ _ h => h) ?_ ?_ ?_ _ n 0 o.config (hc.onward honward)) id
            fun _ h hverdict => h hverdict _ (.sepByFirst (hfirst hmatched))
          · intro owed i k j hmore hrest first hfront
            obtain ⟨m, hseparator, hitem⟩ := hmore
            exact hrest first (.sepByMore hfront hseparator hitem)
          · intro c
            refine Ends.bind (env.orderly_run n separator { c with slot := none }) fun o ho => ?_
            exact orderly_andThen (o := o.withSlot c.slot) ho (.trans ho (env.orderly_run n item _))
          · intro c hc
            exact env.matchesUpTo_separatorItem (env.orderly_run n) ih hc fun k j hseparator hitem =>
              ⟨k, hseparator, hitem⟩
      | discard item =>
          rw [run, runLevel]
          exact Ends.bind (hinner rfl { c with slot := none } hc) fun o ho => ho
      | except kind item forbidden =>
          rw [run, runLevel]
          refine Ends.bind_of_eq fun o ho => ?_
          have hitem := (hinner rfl
            { c with cursor := c.cursor.checkpoint, slot := some kind.default }
            hc.checkpoint).of_eq_ok ho
          exact env.matchesUpTo_settleExcept ((env.orderly_run n item _).of_eq_ok ho) hitem _
      | attempt item =>
          rw [run, runLevel]
          refine Ends.bind_of_eq fun o ho => ?_
          have hitem :=
            (hinner rfl { c with cursor := c.cursor.checkpoint } hc.checkpoint).of_eq_ok ho
          exact env.matchesUpTo_settle ((env.orderly_run n item _).of_eq_ok ho) hitem _ _
      | attemptPure item =>
          rw [run, runLevel]
          refine Ends.bind_of_eq fun o ho => ?_
          have hitem :=
            (hinner rfl { c with cursor := c.cursor.checkpoint } hc.checkpoint).of_eq_ok ho
          exact env.matchesUpTo_settle ((env.orderly_run n item _).of_eq_ok ho) hitem _ _
      | strict message item =>
          rw [run, runLevel]
          refine Ends.bind_of_eq fun o ho => ?_
          have hitem := (hinner rfl c hc).of_eq_ok ho
          split
          · exact Ends.map (env.matchesUpTo_raiseFor _ _ _ _ _)
          · exact hitem
      | trace label item =>
          rw [run, runLevel]
          refine Ends.bind (hinner rfl c hc) fun o ho => ?_
          exact Ends.bind_of_eq fun _ _ => ho
      | token item =>
          rw [run, runLevel]
          refine Ends.bind_of_eq fun o ho => ?_
          have honward := (env.orderly_run n item c).of_eq_ok ho
          have hitem := (ih item c hc).of_eq_ok ho
          refine matchesUpTo_andThen fun hmatched _ => ?_
          obtain ⟨blanks, htext, hblanks⟩ := slice?_skipWhile (hc.onward honward) Unicode.isBlank
          exact .token (hitem hmatched) htext hblanks
      | shared item => exact hinner rfl c hc
      | reference name item => exact hinner rfl c hc
      | define name item => exact hinner rfl c hc
      | rename name rank item => exact hinner rfl c hc
      | all kind action parts =>
          rw [run, runLevel]
          refine Ends.bind (env.derives_runAll (env.orderly_run n) ih kind action parts c hc)
            fun p hp => ?_
          exact matchesUpTo_andThen fun hmatched => env.matchesUpTo_act _ _ _ _ _ (hp hmatched)
      | any kind action parts =>
          rw [run, runLevel]
          refine Ends.bind (env.derives_runAny (env.orderly_run n) ih kind action parts
            c.cursor.position 0 c hc rfl) fun p hp => ?_
          split
          · exact matchesUpTo_andThen fun hmatched => env.matchesUpTo_act _ _ _ _ _ (hp hmatched)
          · exact hp
      | handle slot =>
          rw [run, runLevel]
          split
          · exact hinner ‹_› c hc
          · exact env.matchesUpTo_raiseUndefined c
      | fixed hold name rule =>
          rw [run, runLevel]
          split
          · exact hinner ‹_› c hc
          · exact env.matchesUpTo_raiseUndefined c

/-- If the run of a grammar matches, the grammar derives the text between the places where the cursor
began and ended. -/
theorem derives_of_matched (g : Grammar σ) (c : Config σ)
    (hc : c.cursor.place.IsGenuine c.cursor.input) (o : Outcome σ) (ho : env.Yields g c o)
    (h : o.verdict = .matched) :
    env.store.Derives c.cursor.input g c.cursor.offset o.config.cursor.offset := by
  obtain ⟨n, hn⟩ := ho
  have hrun := env.derives_run n g c ⟨rfl, hc⟩
  exact hrun.of_eq_ok hn h

/-- Items and separators of a list, the second item through a rule that refers to itself. -/
theorem derives_of_matched_list :
    let parenthesized : Grammar Nat := .sequence (.handle ⟨0, 0⟩) (.expect (.symbol ')'))
    let rule : Grammar Nat :=
      .choice (.sequence (.accept (.symbol '(')) parenthesized) (.literal "é")
    let env : Environment Nat := ⟨⟨⟨[some [some (.rule rule)]]⟩, []⟩, .off⟩
    let g : Grammar Nat := .sepBy (.handle ⟨0, 0⟩) (.accept (.symbol ','))
    let c : Config Nat := ⟨Cursor.ofInput ['é', ',', '(', 'é', ')', ';'], none, 0⟩
    c.cursor.place.IsGenuine c.cursor.input ∧ ∃ o, env.Yields g c o ∧ o.verdict = .matched ∧
      o.config.cursor.offset = 7 ∧
        env.store.Derives c.cursor.input g c.cursor.offset o.config.cursor.offset := by
  intro parenthesized rule env g c
  have hc : c.cursor.place.IsGenuine c.cursor.input := ⟨rfl, rfl⟩
  have hrun : ∃ o, env.Yields g c o ∧ o.verdict = .matched ∧ o.config.cursor.offset = 7 := by
    dsimp only [env, g, c, rule, parenthesized]
    exact ⟨_, ⟨12, rfl⟩, rfl, rfl⟩
  obtain ⟨o, ho, hmatched, hoffset⟩ := hrun
  exact ⟨hc, o, ho, hmatched, hoffset, env.derives_of_matched g c hc o ho hmatched⟩

end Environment

end ParserAlgebra
