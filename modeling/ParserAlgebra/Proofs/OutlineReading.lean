import ParserAlgebra.Proofs.Outline
import ParserAlgebra.Proofs.SelfDelimiting

/-!
# The written form of a grammar tells its outline

An outline is read back from its text from left to right. What stands between two connectives shows
by its first symbol what it is, and it shows where it ends, but for the dash that may stand behind
a closing brace. A choice within a sequence stands in parentheses, a sequence within a choice needs
none, since commas bind tighter than bars.
-/

namespace ParserAlgebra

namespace Outline

variable {o p x : Outline} {s t : List Char}

/-- The text of an outline where nothing but a part of a sequence may stand. -/
def partText (o : Outline) : List Char :=
  (o.textUnder .sequence).toList

section Texts

theorem partText_eq (o : Outline) :
    o.partText = [',', ' '].intercalate ((o.parts .sequence).map partText) := by
  have htext := congrArg String.toList (textUnder_eq .sequence o)
  rw [String.toList_intercalate, List.map_map] at htext
  exact htext

/-- A compound has more than one part. -/
theorem IsFlat.parts_ne_self {connective : Connective} {os : List Outline}
    (h : (Outline.compound connective os).IsFlat) :
    (Outline.compound connective os).parts connective ≠ [.compound connective os] := by
  intro hself
  have hos : os = [.compound connective os] := by simpa [Outline.parts] using hself
  cases h with
  | compound hlength _ _ =>
      rw [hos] at hlength
      exact absurd hlength (by simp)

theorem text_eq_textUnder_choice (o : Outline) : o.text = o.textUnder .choice := by
  have hloosest : o.rank.looseness ≤ Connective.choice.rank.looseness := by
    cases o.rank <;> decide
  exact (Rank.enclose_of_le hloosest _).symm

/-- What stands between two bars is written as a part of a sequence, or as several. -/
theorem textUnder_choice_eq_of_parts (h : o.IsFlat) (hself : o.parts .choice = [o]) :
    o.textUnder .choice = o.textUnder .sequence := by
  cases o with
  | compound connective os =>
      cases connective with
      | sequence => rfl
      | choice => exact absurd hself h.parts_ne_self
  | _ => rfl

theorem toList_text_eq (h : o.IsFlat) :
    o.text.toList = [' ', '|', ' '].intercalate ((o.parts .choice).map partText) := by
  have htext := congrArg String.toList (textUnder_eq .choice o)
  rw [String.toList_intercalate, List.map_map, ← text_eq_textUnder_choice] at htext
  refine htext.trans (congrArg _ (List.map_congr_left fun x hx => ?_))
  obtain ⟨hflat, hself⟩ := h.of_mem_parts hx
  exact congrArg String.toList (textUnder_choice_eq_of_parts hflat hself)

end Texts

section Shapes

/-- How the text of a part of a sequence begins. -/
inductive Shape where
  | word
  | symbol
  | literal
  | braces
  | brackets
  | parentheses

def Shape.ofSymbol : Char → Shape
  | '\'' => .symbol
  | '"' => .literal
  | '\x7b' => .braces
  | '[' => .brackets
  | '(' => .parentheses
  | _ => .word

def shape : Outline → Shape
  | .word _ => .word
  | .symbol _ => .symbol
  | .literal _ => .literal
  | .bracketed .option _ => .brackets
  | .bracketed _ _ => .braces
  | .compound _ _ => .parentheses

/-- A part of a sequence is not itself a sequence. -/
structure IsPart (o : Outline) : Prop where
  isFlat : o.IsFlat
  parts : o.parts .sequence = [o]

theorem IsFlat.isPart (h : o.IsFlat) (hx : x ∈ o.parts .sequence) : x.IsPart :=
  ⟨(h.of_mem_parts hx).1, (h.of_mem_parts hx).2⟩

theorem IsPart.eq_choice {connective : Connective} {os : List Outline}
    (h : (compound connective os).IsPart) : connective = .choice := by
  cases connective with
  | choice => rfl
  | sequence => exact absurd h.parts h.isFlat.parts_ne_self

theorem partText_bracketed (bracket : Bracket) (item : Outline) :
    (bracketed bracket item).partText =
      bracket.opening.toList ++ (item.text.toList ++ bracket.closing.toList) := by
  simp [partText, textUnder, rank, text]

theorem partText_choice (os : List Outline) :
    (compound .choice os).partText = '(' :: ((compound .choice os).text.toList ++ [')']) := by
  simp [partText, textUnder, rank, Connective.rank, Rank.enclose, Rank.looseness]

theorem map_ofSymbol_head_partText (h : o.IsPart) :
    o.partText.head?.map Shape.ofSymbol = some o.shape := by
  cases o with
  | word w => rcases w with ⟨⟨⟩⟩ | _ | _ <;> rfl
  | symbol c => simp [partText, textUnder, rank, text, Text.quoteSymbol, Shape.ofSymbol, shape]
  | literal s => simp [partText, textUnder, rank, text, Text.quote, Shape.ofSymbol, shape]
  | bracketed bracket item =>
      rw [partText_bracketed]
      cases bracket <;> rfl
  | compound connective os =>
      obtain rfl := h.eq_choice
      rw [partText_choice]
      rfl

theorem shape_eq (ho : o.IsPart) (hp : p.IsPart) (h : o.partText ++ s = p.partText ++ t) :
    o.shape = p.shape := by
  have hhead {q : Outline} (hq : q.IsPart) (u : List Char) :
      (q.partText ++ u).head?.map Shape.ofSymbol = some q.shape := by
    have hpart := map_ofSymbol_head_partText hq
    cases htext : q.partText with
    | nil =>
        rw [htext] at hpart
        cases hpart
    | cons y ys => rwa [htext] at hpart
  have hshapes := hhead ho s
  rw [h, hhead hp t] at hshapes
  exact (Option.some.inj hshapes).symm

/-- No word begins another one. -/
theorem Word.eq_of_begins {v w : Word} (h : v.name.toList <+: w.name.toList) : v = w := by
  revert h
  rcases v with ⟨⟨⟩⟩ | _ | _ <;> rcases w with ⟨⟨⟩⟩ | _ | _ <;> decide

end Shapes

section Reading

/-- A part of a sequence does not go on here. -/
def EndsPart (u : List Char) : Prop :=
  ¬ ['-'] <+: u

/-- Neither a part nor a sequence goes on here. -/
def EndsSequence (u : List Char) : Prop :=
  EndsPart u ∧ ¬ [',', ' '] <+: u

/-- Nothing goes on here. -/
def EndsText (u : List Char) : Prop :=
  EndsSequence u ∧ ¬ [' ', '|', ' '] <+: u

/-- A part of a sequence is known by its text, if what stands behind it may stand there. -/
def Told (o : Outline) : Prop :=
  ∀ p : Outline, p.IsPart → ReadOff partText EndsPart Eq o p

theorem endsText_closing (bracket : Bracket) (u : List Char) :
    EndsText (bracket.closing.toList ++ u) := by
  cases bracket <;>
    simp [Bracket.closing, EndsText, EndsSequence, EndsPart, List.cons_prefix_cons]

theorem readOff_sequence (ho : o.IsFlat) (htold : ∀ x ∈ o.parts .sequence, x.Told)
    (hp : p.IsFlat) : ReadOff partText EndsSequence Eq o p := by
  intro s t hs ht h
  rw [partText_eq, partText_eq p] at h
  have hends (u : List Char) : EndsPart ([',', ' '] ++ u) := by
    simp [EndsPart, List.cons_prefix_cons]
  obtain ⟨hall, hst⟩ := forall₂_of_intercalate hends (ho.parts_ne_nil .sequence)
    (hp.parts_ne_nil .sequence) (fun x hx y hy => htold x hx y (hp.isPart hy)) hs.1 ht.1 hs.2 ht.2 h
  rw [List.forall₂_eq_eq_eq] at hall
  refine ⟨?_, hst⟩
  rw [← ho.join_parts .sequence, hall, hp.join_parts]

theorem readOff_text (ho : o.IsFlat)
    (htold : ∀ b ∈ o.parts .choice, ∀ x ∈ b.parts .sequence, x.Told) (hp : p.IsFlat) :
    ReadOff (fun o => o.text.toList) EndsText Eq o p := by
  intro s t hs ht h
  simp only [toList_text_eq ho, toList_text_eq hp] at h
  have hends (u : List Char) : EndsSequence ([' ', '|', ' '] ++ u) := by
    simp [EndsSequence, EndsPart, List.cons_prefix_cons]
  have hbranch (b : Outline) (hb : b ∈ o.parts .choice) (c : Outline) (hc : c ∈ p.parts .choice) :
      ReadOff partText EndsSequence Eq b c :=
    readOff_sequence (ho.of_mem_parts hb).1 (htold b hb) (hp.of_mem_parts hc).1
  obtain ⟨hall, hst⟩ := forall₂_of_intercalate hends (ho.parts_ne_nil .choice)
    (hp.parts_ne_nil .choice) hbranch hs.1 ht.1 hs.2 ht.2 h
  rw [List.forall₂_eq_eq_eq] at hall
  refine ⟨?_, hst⟩
  rw [← ho.join_parts .choice, hall, hp.join_parts]

theorem told_word (w : Word) : (word w).Told := by
  intro p hp s t _ _ h
  have hshape := shape_eq ⟨.word w, rfl⟩ hp h
  cases p with
  | word v =>
      have heq : w = v := by
        rcases List.append_eq_append_iff.1 h with ⟨more, hv, -⟩ | ⟨more, hw, -⟩
        · exact Word.eq_of_begins ⟨more, hv.symm⟩
        · exact (Word.eq_of_begins ⟨more, hw.symm⟩).symm
      subst heq
      exact ⟨rfl, List.append_cancel_left h⟩
  | bracketed bracket _ => cases bracket <;> cases hshape
  | symbol | literal | compound => cases hshape

theorem told_symbol (c : Char) : (symbol c).Told := by
  intro p hp s t _ _ h
  have hshape := shape_eq ⟨.symbol c, rfl⟩ hp h
  cases p with
  | symbol d =>
      obtain ⟨rfl, hst⟩ := Text.eq_of_quoteSymbol_append h
      exact ⟨rfl, hst⟩
  | bracketed bracket _ => cases bracket <;> cases hshape
  | word | literal | compound => cases hshape

theorem told_literal (text : String) : (literal text).Told := by
  intro p hp s t _ _ h
  have hshape := shape_eq ⟨.literal text, rfl⟩ hp h
  cases p with
  | literal text' =>
      obtain ⟨rfl, hst⟩ := Text.eq_of_quote_append h
      exact ⟨rfl, hst⟩
  | bracketed bracket _ => cases bracket <;> cases hshape
  | word | symbol | compound => cases hshape

/-- One or more items are told from any number of them by the dash behind the closing brace. -/
theorem Bracket.eq_of_closing_append {a b : Bracket} (hopening : a.opening = b.opening)
    (hs : EndsPart s) (ht : EndsPart t)
    (h : a.closing.toList ++ s = b.closing.toList ++ t) : a = b ∧ s = t := by
  cases a <;> cases b
  all_goals first
    | exact ⟨rfl, List.append_cancel_left h⟩
    | exact absurd hopening (by decide)
    | skip
  · exact absurd ⟨t, (List.cons.inj h).2.symm⟩ hs
  · exact absurd ⟨s, (List.cons.inj h).2⟩ ht

theorem told_bracketed {bracket : Bracket} {item : Outline} (hitem : item.IsFlat)
    (htold : ∀ b ∈ item.parts .choice, ∀ x ∈ b.parts .sequence, x.Told) :
    (bracketed bracket item).Told := by
  intro p hp s t hs ht h
  have hshape := shape_eq ⟨.bracketed bracket hitem, rfl⟩ hp h
  cases p with
  | bracketed bracket' item' =>
      have hopening : bracket.opening = bracket'.opening := by
        cases bracket <;> cases bracket' <;> first | rfl | cases hshape
      have hitem' : item'.IsFlat := by
        cases hp.isFlat with
        | bracketed _ hitem' => exact hitem'
      rw [partText_bracketed, partText_bracketed, hopening] at h
      simp only [List.append_assoc] at h
      obtain ⟨rfl, hclosing⟩ := readOff_text hitem htold hitem' _ _
        (endsText_closing bracket s) (endsText_closing bracket' t) (List.append_cancel_left h)
      obtain ⟨rfl, hst⟩ := Bracket.eq_of_closing_append hopening hs ht hclosing
      exact ⟨rfl, hst⟩
  | word | symbol | literal | compound => cases bracket <;> cases hshape

theorem told_choice {os : List Outline} (ho : (compound .choice os).IsFlat)
    (htold : ∀ b ∈ os, ∀ x ∈ b.parts .sequence, x.Told) : (compound .choice os).Told := by
  intro p hp s t _ _ h
  have hshape := shape_eq ⟨ho, rfl⟩ hp h
  cases p with
  | compound connective ps =>
      obtain rfl := hp.eq_choice
      rw [partText_choice, partText_choice] at h
      have hends (u : List Char) : EndsText (')' :: u) := by
        simp [EndsText, EndsSequence, EndsPart, List.cons_prefix_cons]
      have hinner : (compound .choice os).text.toList ++ ')' :: s =
          (compound .choice ps).text.toList ++ ')' :: t := by
        simpa using h
      obtain ⟨heq, hst⟩ := readOff_text ho htold hp.isFlat _ _ (hends s) (hends t) hinner
      exact ⟨heq, (List.cons.inj hst).2⟩
  | bracketed bracket _ => cases bracket <;> cases hshape
  | word | symbol | literal => cases hshape

/-- The parts of an outline are known by their texts, where the outline stands in a sequence and
where it stands on its own. -/
structure Readable (o : Outline) : Prop where
  parts : ∀ x ∈ o.parts .sequence, x.Told
  branches : ∀ b ∈ o.parts .choice, ∀ x ∈ b.parts .sequence, x.Told

theorem Told.readable (h : o.Told) (hparts : o.parts .sequence = [o])
    (hbranches : o.parts .choice = [o]) : o.Readable := by
  have hself : ∀ x ∈ o.parts .sequence, x.Told := by
    intro x hx
    rw [hparts, List.mem_singleton] at hx
    rwa [hx]
  refine ⟨hself, fun b hb => ?_⟩
  rw [hbranches, List.mem_singleton] at hb
  rwa [hb]

theorem IsFlat.readable (h : o.IsFlat) : o.Readable := by
  induction h with
  | word w => exact (told_word w).readable rfl rfl
  | symbol c => exact (told_symbol c).readable rfl rfl
  | literal text => exact (told_literal text).readable rfl rfl
  | bracketed _ hitem ih => exact (told_bracketed hitem ih.branches).readable rfl rfl
  | @compound connective os hlength hflat hparts ih =>
      cases connective with
      | sequence =>
          have htold : ∀ x ∈ os, x.Told := by
            intro x hx
            exact (ih x hx).parts x (hparts x hx ▸ List.mem_cons_self)
          refine ⟨htold, fun b hb => ?_⟩
          rwa [List.mem_singleton.1 hb]
      | choice =>
          have htold : ∀ b ∈ os, ∀ x ∈ b.parts .sequence, x.Told := fun b hb => (ih b hb).parts
          refine ⟨fun x hx => ?_, htold⟩
          rw [List.mem_singleton.1 hx]
          exact told_choice (.compound hlength hflat hparts) htold

/-- Flat outlines with the same text are the same. -/
theorem IsFlat.eq_of_text_eq (ho : o.IsFlat) (hp : p.IsFlat) (h : o.text = p.text) : o = p := by
  have hends : EndsText [] := by simp [EndsText, EndsSequence, EndsPart]
  have htext : o.text.toList ++ [] = p.text.toList ++ [] := by rw [h]
  exact (readOff_text ho ho.readable.branches hp _ _ hends hends htext).1

end Reading

end Outline

namespace Grammar

/-- Elementary grammars have written forms, and these are the same just where the outlines are,
whatever the external states of the grammars and the stores over which they are written. -/
theorem ebnf_eq_iff_outline_eq {σ τ : Type} (store : Store σ) (store' : Store τ) {g : Grammar σ}
    {h : Grammar τ} (hg : g.IsElementary) (hh : h.IsElementary) :
    ∃ text text', store.ebnf g = some text ∧ store'.ebnf h = some text' ∧
      (text = text' ↔ g.outline = h.outline) := by
  refine ⟨_, _, hg.ebnf_eq store, hh.ebnf_eq store', fun htext => ?_, congrArg Outline.text⟩
  exact hg.isFlat_outline.eq_of_text_eq hh.isFlat_outline htext

/-- A list whose items and separators look like operators. It is told from one in which there is at
least one separator by the last symbol of the text. -/
theorem ebnf_eq_iff_outline_eq_list :
    let comma : Grammar Nat := .literal ", "
    let quote : Grammar Nat := .accept (.symbol '"')
    let dash : Grammar Nat := .literal "\x7d-"
    let action : Action Nat := fun _ slot n => ⟨slot, n, none⟩
    let list : Grammar Nat := .sepBy (.choice comma quote) (.token dash)
    let spelled (repetition : Grammar Nat → Grammar Nat) : Grammar Nat :=
      .all .text action [(.text, .any .text action [(.text, comma), (.text, .attempt quote)]),
        (.text, repetition (.strict "no item" (.sequence dash (.choice comma quote))))]
    let text := "(\", \" | '\\\"'), \x7b\"\x7d-\", (\", \" | '\\\"')\x7d"
    list.IsElementary ∧ (spelled .many).IsElementary ∧ (spelled .manyOne).IsElementary ∧
      Store.empty.ebnf list = some text ∧ Store.empty.ebnf (spelled .many) = some text ∧
        Store.empty.ebnf (spelled .manyOne) = some (text ++ "-") ∧
          list.outline = (spelled .many).outline ∧ list.outline ≠ (spelled .manyOne).outline := by
  intro comma quote dash action list spelled text
  have hitem : (choice comma quote).IsElementary := .choice (.literal _) (.symbol _)
  have hlist : list.IsElementary := .sepBy hitem (.token (.literal _))
  have hspelled {repetition : Grammar Nat → Grammar Nat}
      (hrepetition : ∀ {g : Grammar Nat}, g.IsElementary → (repetition g).IsElementary) :
      (spelled repetition).IsElementary := by
    have hany : (Grammar.any .text action
        [(.text, comma), (.text, .attempt quote)]).IsElementary :=
      .any _ _ (by simp) (by simp [comma, quote, IsElementary.literal, IsElementary.symbol,
        IsElementary.attempt])
    have hrest : (repetition (.strict "no item" (.sequence dash
        (.choice comma quote)))).IsElementary :=
      hrepetition (.strict _ (.sequence (.literal _) hitem))
    exact .all _ _ (by simp) (by simp [hany, hrest])
  have hmany : (spelled .many).IsElementary := hspelled .many
  have hmanyOne : (spelled .manyOne).IsElementary := hspelled .manyOne
  have hwritten : Store.empty.ebnf list = some text := by decide +kernel
  have hwrittenMany : Store.empty.ebnf (spelled .many) = some text := by decide +kernel
  have hwrittenManyOne : Store.empty.ebnf (spelled .manyOne) = some (text ++ "-") := by
    decide +kernel
  refine ⟨hlist, hmany, hmanyOne, hwritten, hwrittenMany, hwrittenManyOne, ?_, ?_⟩
  · obtain ⟨_, _, h, h', hiff⟩ := ebnf_eq_iff_outline_eq Store.empty Store.empty hlist hmany
    refine hiff.1 (Option.some.inj ?_)
    rw [← h, ← h', hwritten, hwrittenMany]
  · obtain ⟨_, _, h, h', hiff⟩ := ebnf_eq_iff_outline_eq Store.empty Store.empty hlist hmanyOne
    refine fun houtline => absurd (congrArg some (hiff.2 houtline)) ?_
    rw [← h, ← h', hwritten, hwrittenManyOne]
    decide

end Grammar

end ParserAlgebra
