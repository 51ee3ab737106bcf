import ParserAlgebra.Proofs.Layout
import ParserAlgebra.Proofs.SlotDiscipline

/-!
# Grammars over tokens

A token takes a literal without whitespace, or symbols that are no whitespace, and the whitespace
behind that. Whatever is put together from such tokens cannot tell two texts with the same words
apart, once the whitespace before the first token is gone.
-/

namespace ParserAlgebra

variable {σ : Type} {u v : List Char}

/-- A predicate that accepts no whitespace. It may accept the end of the input. -/
def Predicate.RejectsBlanks (p : Predicate) : Prop :=
  ∀ s, Unicode.isBlank s = true → p.accepts (some s) = false

theorem Predicate.rejectsBlanks_symbol {s : Char} (hs : Unicode.isBlank s = false) :
    (Predicate.symbol s).RejectsBlanks := by
  intro c hc
  have hne : c ≠ s := by
    rintro rfl
    rw [hs] at hc
    cases hc
  simpa [Predicate.accepts] using hne

namespace Grammar

/-- What tokens are made of. -/
inductive IsLexeme : Grammar σ → Prop
  | literal {text : String} (htext : Text.IsSolid text.toList) : IsLexeme (.literal text)
  | accept {p : Predicate} (hp : p.RejectsBlanks) : IsLexeme (.accept p)
  | manyOne {p : Predicate} (hp : p.RejectsBlanks) : IsLexeme (.manyOne (.accept p))

/-- A grammar over tokens, if the rules it refers to are among `rules`. -/
inductive Tokenwise (rules : RuleName → Prop) : Grammar σ → Prop
  | token {item : Grammar σ} (hitem : item.IsLexeme) : Tokenwise rules (.token item)
  | succeed : Tokenwise rules .succeed
  | fail : Tokenwise rules .fail
  | sequence {a b : Grammar σ} (ha : Tokenwise rules a) (hb : Tokenwise rules b) :
      Tokenwise rules (.sequence a b)
  | choice {a b : Grammar σ} (ha : Tokenwise rules a) (hb : Tokenwise rules b) :
      Tokenwise rules (.choice a b)
  | repetition {atLeast : Nat} {item : Grammar σ} (hitem : Tokenwise rules item) :
      Tokenwise rules (.repetition atLeast item)
  | option {item : Grammar σ} (hitem : Tokenwise rules item) : Tokenwise rules (.option item)
  | sepBy {item separator : Grammar σ} (hitem : Tokenwise rules item)
      (hseparator : Tokenwise rules separator) : Tokenwise rules (.sepBy item separator)
  | discard {item : Grammar σ} (hitem : Tokenwise rules item) : Tokenwise rules (.discard item)
  | except {kind : Kind} {item : Grammar σ} {forbidden : Value} (hitem : Tokenwise rules item) :
      Tokenwise rules (.except kind item forbidden)
  | attempt {item : Grammar σ} (hitem : Tokenwise rules item) : Tokenwise rules (.attempt item)
  | attemptPure {item : Grammar σ} (hitem : Tokenwise rules item) :
      Tokenwise rules (.attemptPure item)
  | strict {message : String} {item : Grammar σ} (hitem : Tokenwise rules item) :
      Tokenwise rules (.strict message item)
  | trace {label : String} {item : Grammar σ} (hitem : Tokenwise rules item) :
      Tokenwise rules (.trace label item)
  | shared {item : Grammar σ} (hitem : Tokenwise rules item) : Tokenwise rules (.shared item)
  | reference {name : String} {body : Grammar σ} (hbody : Tokenwise rules body) :
      Tokenwise rules (.reference name body)
  | define {name : String} {body : Grammar σ} (hbody : Tokenwise rules body) :
      Tokenwise rules (.define name body)
  | rename {name : String} {rank : Rank} {body : Grammar σ} (hbody : Tokenwise rules body) :
      Tokenwise rules (.rename name rank body)
  | all {kind : Kind} {action : Action σ} {parts : List (Kind × Grammar σ)}
      (hparts : ∀ part ∈ parts, Tokenwise rules part.2) : Tokenwise rules (.all kind action parts)
  | any {kind : Kind} {action : Action σ} {parts : List (Kind × Grammar σ)}
      (hparts : ∀ part ∈ parts, Tokenwise rules part.2) : Tokenwise rules (.any kind action parts)
  | handle {slot : Slot} (hslot : rules (.slot slot)) : Tokenwise rules (.handle slot)
  | fixed {hold : Hold} {name : String} {rule : RuleId} (hrule : rules (.fixed rule)) :
      Tokenwise rules (.fixed hold name rule)

end Grammar

open Correspondence

/-- Two runs that have matched, and stand before the same part of a word. -/
structure Outcome.TakenAlike (u v : List Char) (o p : Outcome σ) : Prop where
  verdict : o.verdict = .matched
  verdict' : p.verdict = .matched
  cursor : ∃ w, o.config.cursor.SameWord u v w p.config.cursor
  slot : o.config.slot = p.config.slot
  state : o.config.state = p.config.state

/-- Two runs that have matched before the same part of a word, or have not matched and not moved. -/
inductive Outcome.AlikeFrom (u v : List Char) (c d : Config σ) : Outcome σ → Outcome σ → Prop
  | taken {o p : Outcome σ} (h : o.TakenAlike u v p) : AlikeFrom u v c d o p
  | mismatched : AlikeFrom u v c d c.mismatched d.mismatched

namespace Config

variable {c d : Config σ} {w text : List Char} {s : Char}

theorem sameWord_takeSymbol (h : c.cursor.SameWord u v (s :: w) d.cursor) :
    c.takeSymbol.cursor.SameWord u v w d.takeSymbol.cursor := by
  obtain ⟨rest, rest', hrest, hrest', -⟩ := h.ahead
  have hword : c.cursor.SameWord u v ([s] ++ w) d.cursor := h
  refine hword.onward c.onward_takeSymbol d.onward_takeSymbol ?_ ?_
  · rw [takeSymbol_of_ahead hrest]
    exact hrest
  · rw [takeSymbol_of_ahead hrest']
    exact hrest'

theorem takenAlike_take (h : c.cursor.SameWord u v (text ++ w) d.cursor)
    (hslot : c.slot = d.slot) (hstate : c.state = d.state) :
    (c.take text).matched.TakenAlike u v (d.take text).matched := by
  obtain ⟨rest, rest', hrest, hrest', -⟩ := h.ahead
  rw [List.append_assoc] at hrest hrest'
  have hahead : (c.take text).cursor.ahead = w ++ rest := congrArg Place.ahead (place_take hrest)
  have hahead' : (d.take text).cursor.ahead = w ++ rest' := congrArg Place.ahead (place_take hrest')
  refine ⟨rfl, rfl, ⟨w, h.onward (c.onward_take text) (d.onward_take text) ?_ ?_⟩, ?_, hstate⟩
  · exact hrest.trans (congrArg (text ++ ·) hahead.symm)
  · exact hrest'.trans (congrArg (text ++ ·) hahead'.symm)
  · exact congrArg (Option.map _) hslot

theorem slot_takeSymbol_eq (hsymbol : c.cursor.symbol? = d.cursor.symbol?)
    (hslot : c.slot = d.slot) : c.takeSymbol.slot = d.takeSymbol.slot := by
  unfold takeSymbol
  rw [hsymbol]
  split
  · exact hslot
  · exact congrArg (Option.map _) hslot

theorem takeSymbol_of_ahead_nil (h : c.cursor.ahead = []) : c.takeSymbol = c := by
  have hend : c.cursor.symbol? = none := congrArg List.head? h
  rw [takeSymbol, hend]

theorem state_takeSymbol (c : Config σ) : c.takeSymbol.state = c.state := by
  unfold takeSymbol
  split <;> rfl

end Config

namespace Environment

variable {env : Environment σ} {c d : Config σ} {p : Predicate} {n m : Nat} {w : List Char}

/-- Where a word has ended an iteration over its symbols ends, too, whether at whitespace or at the
end of the input. -/
theorem iterate_accept_of_atGap (hp : p.RejectsBlanks) (hgap : Text.AtGap c.cursor.ahead)
    (blamed : Grammar σ) :
    env.iterate blamed (env.run (n + 1) (.accept p)) (m + 1) 0 c = .ok c.matched := by
  by_cases haccepts : p.accepts c.cursor.symbol? = true
  · have hend : c.cursor.ahead = [] := by
      cases hahead : c.cursor.ahead with
      | nil => rfl
      | cons s rest =>
          have hsymbol : c.cursor.symbol? = some s := congrArg List.head? hahead
          rw [hsymbol, hp s (hgap s hsymbol)] at haccepts
          cases haccepts
    have hrun := env.run_accept n haccepts
    rw [Config.takeSymbol_of_ahead_nil hend] at hrun
    exact iterate_of_empty hrun rfl rfl
  · exact iterate_of_mismatched (run_accept_of_rejected n haccepts) rfl rfl

theorem takenAlike_takeSymbol (h : c.cursor.SameWord u v w d.cursor)
    (hend : w = [] → c.cursor.ahead = [] ∧ d.cursor.ahead = [])
    (hsymbol : c.cursor.symbol? = d.cursor.symbol?) (hslot : c.slot = d.slot)
    (hstate : c.state = d.state) :
    c.takeSymbol.matched.TakenAlike u v d.takeSymbol.matched := by
  have hstate' : c.takeSymbol.state = d.takeSymbol.state := by
    rw [Config.state_takeSymbol, Config.state_takeSymbol, hstate]
  refine ⟨rfl, rfl, ?_, Config.slot_takeSymbol_eq hsymbol hslot, hstate'⟩
  cases w with
  | nil =>
      obtain ⟨hc, hd⟩ := hend rfl
      change ∃ w, c.takeSymbol.cursor.SameWord u v w d.takeSymbol.cursor
      rw [Config.takeSymbol_of_ahead_nil hc, Config.takeSymbol_of_ahead_nil hd]
      exact ⟨[], h⟩
  | cons s w => exact ⟨w, Config.sameWord_takeSymbol h⟩

/-- Iterations over what is left of a word. -/
theorem takenAlike_iterate (hp : p.RejectsBlanks) (h : c.matched.TakenAlike u v d.matched)
    (blamed : Grammar σ) :
    EndsAlike (Outcome.TakenAlike u v) (env.iterate blamed (env.run (n + 1) (.accept p)) m 0 c)
      (env.iterate blamed (env.run (n + 1) (.accept p)) m 0 d) := by
  induction m generalizing c d with
  | zero => exact .stop _
  | succ m ih =>
      obtain ⟨w, hword⟩ := h.cursor
      obtain ⟨rest, rest', hrest, hrest', hgap, hgap', -⟩ := hword.ahead
      cases w with
      | nil =>
          rw [iterate_accept_of_atGap hp (hrest ▸ hgap) blamed,
            iterate_accept_of_atGap hp (hrest' ▸ hgap') blamed]
          exact .ok h
      | cons s w =>
          have hsymbol : c.cursor.symbol? = some s := congrArg List.head? hrest
          have hsymbol' : d.cursor.symbol? = some s := congrArg List.head? hrest'
          by_cases haccepts : p.accepts (some s) = true
          · have hrun := env.run_accept n (hsymbol ▸ haccepts)
            have hrun' := env.run_accept n (hsymbol' ▸ haccepts)
            rw [iterate_of_moved hrun rfl (Config.offset_takeSymbol_ne_of_ahead hrest),
              iterate_of_moved hrun' rfl (Config.offset_takeSymbol_ne_of_ahead hrest')]
            have htaken := takenAlike_takeSymbol hword (fun hw => nomatch hw)
              (hsymbol.trans hsymbol'.symm) h.slot h.state
            exact EndsAlike.map ((ih htaken).imp fun _ _ _ _ hop => hop)
          · rw [iterate_of_mismatched (run_accept_of_rejected n (hsymbol ▸ haccepts)) rfl rfl,
              iterate_of_mismatched (run_accept_of_rejected n (hsymbol' ▸ haccepts)) rfl rfl]
            exact .ok h

section Lexemes

variable (h : (layout u v).Configs Eq c d)

include h

theorem alikeFrom_literal {text : String} (htext : Text.IsSolid text.toList) (n : Nat) :
    EndsAlike (Outcome.AlikeFrom u v c d) (env.run (n + 1) (.literal text) c)
      (env.run (n + 1) (.literal text) d) := by
  have hcursor : c.cursor.SameWords u v d.cursor := h.cursor
  obtain ⟨w, hword, -⟩ := hcursor.exists_sameWord
  obtain ⟨rest, rest', hrest, hrest', hgap, hgap', -⟩ := hword.ahead
  have hiff := Text.isPrefix_append_iff (w := w) htext hgap
  have hiff' := Text.isPrefix_append_iff (w := w) htext hgap'
  rw [run, runLevel, run, runLevel]
  by_cases hprefix : text.toList <+: w
  · rw [if_pos (List.isPrefixOf_iff_prefix.2 (hrest ▸ hiff.2 hprefix)),
      if_pos (List.isPrefixOf_iff_prefix.2 (hrest' ▸ hiff'.2 hprefix))]
    obtain ⟨more, rfl⟩ := hprefix
    exact .ok (.taken (Config.takenAlike_take hword h.slot h.state))
  · rw [if_neg (mt List.isPrefixOf_iff_prefix.1 (hrest ▸ mt hiff.1 hprefix)),
      if_neg (mt List.isPrefixOf_iff_prefix.1 (hrest' ▸ mt hiff'.1 hprefix))]
    exact .ok .mismatched

theorem alikeFrom_accept (p : Predicate) (n : Nat) :
    EndsAlike (Outcome.AlikeFrom u v c d) (env.run (n + 1) (.accept p) c)
      (env.run (n + 1) (.accept p) d) := by
  have hcursor : c.cursor.SameWords u v d.cursor := h.cursor
  have hsymbol := hcursor.symbol?_eq
  obtain ⟨w, hword, hend⟩ := hcursor.exists_sameWord
  by_cases haccepts : p.accepts c.cursor.symbol? = true
  · rw [run_accept n haccepts, run_accept n (hsymbol ▸ haccepts)]
    exact .ok (.taken (takenAlike_takeSymbol hword hend hsymbol h.slot h.state))
  · rw [run_accept_of_rejected n haccepts, run_accept_of_rejected n (hsymbol ▸ haccepts)]
    exact .ok .mismatched

theorem alikeFrom_manyOne (hp : p.RejectsBlanks) (n : Nat) :
    EndsAlike (Outcome.AlikeFrom u v c d) (env.run (n + 2) (.manyOne (.accept p)) c)
      (env.run (n + 2) (.manyOne (.accept p)) d) := by
  have hcursor : c.cursor.SameWords u v d.cursor := h.cursor
  have hsymbol := hcursor.symbol?_eq
  obtain ⟨w, hword, hend⟩ := hcursor.exists_sameWord
  rw [run, runLevel, run, runLevel]
  by_cases haccepts : p.accepts c.cursor.symbol? = true
  · have hrun := env.run_accept n haccepts
    have hrun' := env.run_accept n (hsymbol ▸ haccepts)
    have htaken := takenAlike_takeSymbol hword hend hsymbol h.slot h.state
    cases w with
    | nil =>
        -- At the end of both inputs, which the predicate accepts.
        obtain ⟨hc, hd⟩ := hend rfl
        have hstays := congrArg Config.cursor (Config.takeSymbol_of_ahead_nil hc)
        have hstays' := congrArg Config.cursor (Config.takeSymbol_of_ahead_nil hd)
        rw [iterate_of_empty hrun rfl (congrArg Cursor.offset hstays),
          iterate_of_empty hrun' rfl (congrArg Cursor.offset hstays')]
        exact .ok (.taken htaken)
    | cons s w =>
        obtain ⟨rest, rest', hrest, hrest', -⟩ := hword.ahead
        rw [iterate_of_moved hrun rfl (Config.offset_takeSymbol_ne_of_ahead hrest),
          iterate_of_moved hrun' rfl (Config.offset_takeSymbol_ne_of_ahead hrest')]
        exact EndsAlike.map ((takenAlike_iterate hp htaken _).imp fun _ _ _ _ hop => .taken hop)
  · rw [iterate_of_mismatched (run_accept_of_rejected n haccepts) rfl rfl,
      iterate_of_mismatched (run_accept_of_rejected n (hsymbol ▸ haccepts)) rfl rfl]
    exact .ok .mismatched

/-- At the same word a lexeme takes the same part of it, or neither of two runs takes any. -/
theorem alikeFrom_lexeme {item : Grammar σ} (hitem : item.IsLexeme) (n : Nat) :
    EndsAlike (Outcome.AlikeFrom u v c d) (env.run n item c) (env.run n item d) := by
  cases n with
  | zero => exact .stop _
  | succ n =>
      cases hitem with
      | literal htext => exact alikeFrom_literal h htext n
      | @accept p _ => exact alikeFrom_accept h p n
      | manyOne hp =>
          cases n with
          | zero => exact .stop _
          | succ n => exact alikeFrom_manyOne h hp n

end Lexemes

theorem inStep_token {item : Grammar σ} (hitem : item.IsLexeme) (n : Nat) :
    (layout u v).InStep Eq (env.run n (.token item)) (env.run n (.token item)) := by
  intro c d h
  cases n with
  | zero => exact .stop _
  | succ n =>
      rw [run, runLevel, run, runLevel]
      refine (alikeFrom_lexeme h hitem n).bind fun o p _ _ hop => ?_
      cases hop with
      | taken htaken =>
          obtain ⟨w, hword⟩ := htaken.cursor
          rw [Outcome.andThen_of_matched htaken.verdict, Outcome.andThen_of_matched htaken.verdict']
          exact .ok ⟨.matched, ⟨hword.skipBlanks, htaken.slot, htaken.state⟩, False.elim⟩
      | mismatched => exact .ok h.mismatched

/-- Runs of a grammar over tokens on two texts with the same words. -/
theorem inStep_tokenwise {rules : RuleName → Prop}
    (hrules : ∀ name body, rules name → env.store.body? name = some body → body.Tokenwise rules)
    {g : Grammar σ} (hg : g.Tokenwise rules) (n : Nat) :
    (layout u v).InStep Eq (env.run n g) (env.run n g) := by
  refine inStep_run_of_components (P := Grammar.Tokenwise rules) (fun g hg => ?_) n hg
  cases hg with
  | token hitem => exact .inl (inStep_token hitem)
  | succeed | fail => exact .inr ⟨id, fun q hq => nomatch hq⟩
  | sequence ha hb | choice ha hb =>
      exact .inr ⟨id, List.forall_mem_cons.2 ⟨ha, List.forall_mem_singleton.2 hb⟩⟩
  | sepBy hitem hseparator =>
      refine .inr ⟨id, List.forall_mem_cons.2 ⟨hitem, List.forall_mem_cons.2 ⟨hseparator, ?_⟩⟩⟩
      exact List.forall_mem_singleton.2 hitem
  | repetition hitem | option hitem | discard hitem | except hitem | attempt hitem
  | attemptPure hitem | strict hitem | trace hitem | shared hitem | reference hitem | define hitem
  | rename hitem => exact .inr ⟨id, List.forall_mem_singleton.2 hitem⟩
  | all hparts | any hparts =>
      refine .inr ⟨id, fun q hq => ?_⟩
      obtain ⟨part, hpart, rfl⟩ := List.mem_map.1 hq
      exact hparts part hpart
  | handle hslot =>
      exact .inr ⟨id, fun q hq => hrules _ q hslot (Option.mem_toList.1 hq)⟩
  | fixed hrule =>
      exact .inr ⟨id, fun q hq => hrules _ q hrule (Option.mem_toList.1 hq)⟩

/-- Whitespace is passed up to the first symbol that is none. -/
theorem exists_yields_blanks (env : Environment σ) (c : Config σ) :
    ∃ slot, env.Yields (.many (.accept (.ofClass .space))) c
      (Config.matched ⟨c.cursor.skipWhile Unicode.isBlank, slot, c.state⟩) := by
  generalize hcs : c.cursor.ahead = cs
  induction cs generalizing c with
  | nil =>
      have hsymbol : c.cursor.symbol? = none := congrArg List.head? hcs
      have hitem := env.run_accept_of_rejected (p := .ofClass .space) 0 (c := c) (by simp [hsymbol])
      rw [Cursor.skipWhile_of_head (by simp [hcs])]
      exact ⟨c.slot, yields_repetition_of_mismatched ⟨1, hitem⟩ rfl rfl⟩
  | cons s rest ih =>
      have hsymbol : c.cursor.symbol? = some s := congrArg List.head? hcs
      by_cases hs : Unicode.isBlank s = true
      · have hitem := env.run_accept (p := .ofClass .space) 0 (c := c) (by rw [hsymbol]; exact hs)
        have hmoved := Config.offset_takeSymbol_ne_of_ahead hcs
        have htaken := Config.takeSymbol_of_ahead hcs
        obtain ⟨slot, hrest⟩ := ih c.takeSymbol (by rw [htaken]; rfl)
        refine ⟨slot, ?_⟩
        have hyields : env.Yields (.many (.accept (.ofClass .space))) c _ :=
          yields_repetition_of_moved ⟨1, hitem⟩ rfl hmoved hrest
        rw [htaken] at hyields
        rw [Cursor.skipWhile_of_ahead hcs hs]
        exact hyields
      · have hitem := env.run_accept_of_rejected (p := .ofClass .space) 0 (c := c)
          (by rw [hsymbol]; exact hs)
        rw [Cursor.skipWhile_of_head (by simpa [hcs] using hs)]
        exact ⟨c.slot, yields_repetition_of_mismatched ⟨1, hitem⟩ rfl rfl⟩

theorem yields_firstToken (env : Environment σ) (c : Config σ) :
    env.Yields .firstToken c
      (Config.matched { c with cursor := c.cursor.skipWhile Unicode.isBlank }) := by
  obtain ⟨slot, hblanks⟩ := env.exists_yields_blanks { c with slot := none }
  exact yields_discard hblanks rfl

/-- Behind the whitespace before the first token, two texts with the same words look alike. -/
theorem sameWords_firstToken (hwords : Text.words u = Text.words v) :
    ((Cursor.ofInput u).skipWhile Unicode.isBlank).SameWords u v
      ((Cursor.ofInput v).skipWhile Unicode.isBlank) := by
  have hbegan (input : List Char) : (Cursor.ofInput input).LiesIn input :=
    ⟨rfl, (Cursor.wellFormed_ofInput input).place⟩
  refine ⟨(hbegan u).onward (Cursor.onward_skipWhile _ _),
    (hbegan v).onward (Cursor.onward_skipWhile _ _), ?_, ?_, ?_⟩
  · rw [Cursor.ahead_skipWhile, Cursor.ahead_skipWhile, Text.words_dropWhile, Text.words_dropWhile]
    exact hwords
  · rw [Cursor.ahead_skipWhile]
    exact Text.atWord_dropWhile _
  · rw [Cursor.ahead_skipWhile]
    exact Text.atWord_dropWhile _

end Environment

/-- The ends of runs on two texts that differ in nothing but whitespace passed. -/
structure Outcome.SameReading (u v : List Char) (o p : Outcome σ) : Prop where
  verdict : o.verdict.Alike ParseError.SameFinding p.verdict
  slot : o.config.slot = p.config.slot
  state : o.config.state = p.config.state
  passed : ∃ passed passed', Text.slice? 0 o.config.cursor.offset u = some passed ∧
    Text.slice? 0 p.config.cursor.offset v = some passed' ∧ Text.solid passed = Text.solid passed'

theorem Outcome.sameReading_of_outcomes (hwords : Text.words u = Text.words v) {o p : Outcome σ}
    (hop : (layout u v).Outcomes Eq o p) : o.SameReading u v p := by
  have hcursor : o.config.cursor.SameWords u v p.config.cursor := hop.config.cursor
  obtain ⟨passed, hu, hlength⟩ := hcursor.left.exists_append
  obtain ⟨passed', hv, hlength'⟩ := hcursor.right.exists_append
  refine ⟨hop.verdict, hop.config.slot, hop.config.state, passed, passed', ?_, ?_, ?_⟩
  · exact Text.slice?_eq_some_iff.2 ⟨[], _, hu, rfl, hlength.symm⟩
  · exact Text.slice?_eq_some_iff.2 ⟨[], _, hv, rfl, hlength'.symm⟩
  · have hsolid := Text.solid_eq_of_words_eq hwords
    rw [hu, hv, Text.solid_append, Text.solid_append,
      Text.solid_eq_of_words_eq hcursor.words] at hsolid
    exact List.append_cancel_right hsolid

namespace Environment

variable {env : Environment σ} {g : Grammar σ} {rules : RuleName → Prop}

/-- Two texts with the same words are read alike: the one run comes to an end if the other one does,
with the same verdict, slot and state, and with the same symbols passed but for whitespace. Errors
say the same but for where they are. -/
theorem sameReading_of_words_eq
    (hrules : ∀ name body, rules name → env.store.body? name = some body → body.Tokenwise rules)
    (hg : g.Tokenwise rules) (hwords : Text.words u = Text.words v) (slot : Option Value)
    (state : σ) :
    (∀ o, env.Yields (.sequence .firstToken g) ⟨.ofInput u, slot, state⟩ o →
      ∃ p, env.Yields (.sequence .firstToken g) ⟨.ofInput v, slot, state⟩ p ∧
        o.SameReading u v p) ∧
      ∀ p, env.Yields (.sequence .firstToken g) ⟨.ofInput v, slot, state⟩ p →
        ∃ o, env.Yields (.sequence .firstToken g) ⟨.ofInput u, slot, state⟩ o ∧
          o.SameReading u v p := by
  let began (input : List Char) : Config σ :=
    ⟨(Cursor.ofInput input).skipWhile Unicode.isBlank, slot, state⟩
  have hfirst (input : List Char) : env.Yields .firstToken ⟨.ofInput input, slot, state⟩
      (began input).matched := env.yields_firstToken _
  have hbegan : (layout u v).Configs Eq (began u) (began v) :=
    ⟨sameWords_firstToken hwords, rfl, rfl⟩
  have hruns (n : Nat) := inStep_tokenwise hrules hg n (began u) (began v) hbegan
  constructor
  · intro o ho
    obtain ⟨rest, ⟨n, hn⟩, rfl⟩ := ho.exists_second (hfirst u) rfl
    obtain ⟨rest', hn', hop⟩ := (hruns n).exists_of_left hn
    exact ⟨_, yields_sequence (hfirst v) rfl ⟨n, hn'⟩,
      Outcome.sameReading_of_outcomes hwords (hop.after False.elim)⟩
  · intro p hp
    obtain ⟨rest', ⟨n, hn⟩, rfl⟩ := hp.exists_second (hfirst v) rfl
    obtain ⟨rest, hn', hop⟩ := (hruns n).exists_of_right hn
    exact ⟨_, yields_sequence (hfirst u) rfl ⟨n, hn'⟩,
      Outcome.sameReading_of_outcomes hwords (hop.after False.elim)⟩

/-- A list of names that a number ends, on one row and over three of them. -/
theorem sameReading_of_words_eq_rows :
    let name : Grammar Nat := .token (.manyOne (.accept (.symbol 'x')))
    let number : Grammar Nat := .token (.manyOne (.accept (.symbol '7')))
    let rule : Grammar Nat := .choice (.attempt (.sequence name (.handle ⟨0, 0⟩))) number
    let g : Grammar Nat := .sequence (.token (.literal "let")) (.handle ⟨0, 0⟩)
    let env : Environment Nat := ⟨⟨⟨[some [some (.rule rule)]]⟩, []⟩, .off⟩
    let rules : RuleName → Prop := (· = .slot ⟨0, 0⟩)
    let u := ['l', 'e', 't', 'x', ' ', 'x', 'x', ' ', '7', '7']
    let v := ['\n', 'l', 'e', 't', 'x', '\t', '\n', 'x', 'x', ' ', ' ', '7', '7', '\n']
    (∀ name body, rules name → env.store.body? name = some body → body.Tokenwise rules) ∧
      g.Tokenwise rules ∧ Text.words u = Text.words v ∧
        ∃ o p, env.Yields (.sequence .firstToken g) ⟨.ofInput u, some (.text ""), 0⟩ o ∧
          o.verdict = .matched ∧ o.config.slot = some (.text "letxxx77") ∧
            env.Yields (.sequence .firstToken g) ⟨.ofInput v, some (.text ""), 0⟩ p ∧
              o.SameReading u v p := by
  intro name number rule g env rules u v
  have hname : name.Tokenwise rules :=
    .token (.manyOne (Predicate.rejectsBlanks_symbol (by decide)))
  have hnumber : number.Tokenwise rules :=
    .token (.manyOne (Predicate.rejectsBlanks_symbol (by decide)))
  have hrules : ∀ name body, rules name → env.store.body? name = some body →
      body.Tokenwise rules := by
    rintro name body rfl hbody
    obtain rfl : rule = body := Option.some.inj hbody
    exact .choice (.attempt (.sequence hname (.handle rfl))) hnumber
  have hletters : "let".toList = ['l', 'e', 't'] := rfl
  have hlet : Text.IsSolid "let".toList := by
    simp only [Text.IsSolid, hletters, List.forall_mem_cons]
    exact ⟨rfl, rfl, rfl, List.forall_mem_nil _⟩
  have hg : g.Tokenwise rules := .sequence (.token (.literal hlet)) (.handle rfl)
  have hwords : Text.words u = Text.words v := by decide
  obtain ⟨o, ho, hverdict, hslot⟩ : ∃ o,
      env.Yields (.sequence .firstToken g) ⟨.ofInput u, some (.text ""), 0⟩ o ∧
        o.verdict = .matched ∧ o.config.slot = some (.text "letxxx77") := by
    dsimp only [g, rule, name, number, env, u]
    exact ⟨_, ⟨20, rfl⟩, rfl, rfl⟩
  obtain ⟨p, hp, hsame⟩ := (sameReading_of_words_eq hrules hg hwords _ _).1 o ho
  exact ⟨hrules, hg, hwords, o, p, ho, hverdict, hslot, hp, hsame⟩

end Environment

end ParserAlgebra
