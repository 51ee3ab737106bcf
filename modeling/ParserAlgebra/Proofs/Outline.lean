import Mathlib.Data.List.Forall2
import ParserAlgebra.Proofs.Writing

/-!
# Outlines of grammars

The outline of a grammar is what its written form shows of it. There are no wrappers in an outline.
A list with separators is an item, followed by a separator and an item many times. A group of one
part is that part, larger groups are sequences and choices of all their parts, and sequences within
sequences and choices within choices are taken apart. A grammar is elementary if it is put together
from classes, symbols, literal texts, `succ` and `fail` by operators that an outline knows; such a
grammar is written as its outline is.
-/

namespace ParserAlgebra

/-- What is written as a word of its own. -/
inductive Outline.Word where
  | ofClass (cls : SymbolClass)
  | succeed
  | fail
  deriving DecidableEq

/-- The operators that are written as brackets around one part. -/
inductive Outline.Bracket where
  | many
  | manyOne
  | option
  deriving DecidableEq

/-- The operators that are written between their parts. -/
inductive Outline.Connective where
  | sequence
  | choice
  deriving DecidableEq

inductive Outline where
  | word (w : Outline.Word)
  | symbol (c : Char)
  | literal (text : String)
  | bracketed (bracket : Outline.Bracket) (item : Outline)
  | compound (connective : Outline.Connective) (parts : List Outline)

namespace Outline

def Word.name : Word → String
  | .ofClass cls => cls.name
  | .succeed => "succ"
  | .fail => "fail"

def Bracket.opening : Bracket → String
  | .many | .manyOne => "\x7b"
  | .option => "["

def Bracket.closing : Bracket → String
  | .many => "\x7d"
  | .manyOne => "\x7d-"
  | .option => "]"

def Connective.rank : Connective → Rank
  | .sequence => .sequence
  | .choice => .choice

def Connective.separator : Connective → String
  | .sequence => ", "
  | .choice => " | "

def rank : Outline → Rank
  | .compound connective _ => connective.rank
  | _ => .atom

/-- The written form of an outline. -/
def text : Outline → String
  | .word w => w.name
  | .symbol c => Text.quoteSymbol c
  | .literal s => Text.quote s
  | .bracketed bracket item => bracket.opening ++ item.text ++ bracket.closing
  | .compound connective parts => connective.separator.intercalate (texts connective parts)
where
  /-- The written forms of some parts that a connective stands between. -/
  texts (connective : Connective) : List Outline → List String
    | [] => []
    | part :: parts => connective.rank.enclose part.rank part.text :: texts connective parts

/-- The written form of an outline next to a connective. -/
def textUnder (connective : Connective) (o : Outline) : String :=
  connective.rank.enclose o.rank o.text

/-- The parts of a compound that is written with a connective. Anything else is a part itself. -/
def parts (connective : Connective) : Outline → List Outline
  | .compound own parts => if own = connective then parts else [.compound own parts]
  | o => [o]

/-- Puts outlines together with a connective. Compounds with the same connective are taken apart,
and a single outline remains as it is. -/
def join (connective : Connective) : List Outline → Outline
  | [o] => o
  | os => .compound connective (os.flatMap (parts connective))

/-- No compound has less than two parts, or a part with its own connective. -/
inductive IsFlat : Outline → Prop
  | word (w : Word) : IsFlat (.word w)
  | symbol (c : Char) : IsFlat (.symbol c)
  | literal (text : String) : IsFlat (.literal text)
  | bracketed (bracket : Bracket) {item : Outline} (h : IsFlat item) :
      IsFlat (.bracketed bracket item)
  | compound {connective : Connective} {os : List Outline} (hlength : 2 ≤ os.length)
      (hos : ∀ o ∈ os, IsFlat o) (hparts : ∀ o ∈ os, o.parts connective = [o]) :
      IsFlat (.compound connective os)

variable {connective : Connective} {o x : Outline} {os : List Outline}

theorem texts_eq_map (connective : Connective) (os : List Outline) :
    text.texts connective os = os.map (textUnder connective) := by
  induction os with
  | nil => rfl
  | cons o os ih => rw [text.texts, ih, List.map_cons, textUnder]

theorem join_of_length_ne (h : os.length ≠ 1) :
    join connective os = .compound connective (os.flatMap (parts connective)) := by
  match os with
  | [] => rfl
  | [_] => exact absurd rfl h
  | _ :: _ :: _ => rfl

theorem parts_eq_or_exists (connective : Connective) (o : Outline) :
    o.parts connective = [o] ∨ ∃ os, o = .compound connective os ∧ o.parts connective = os := by
  cases o with
  | compound own os =>
      by_cases h : own = connective
      · subst h
        exact .inr ⟨os, rfl, if_pos rfl⟩
      · exact .inl (if_neg h)
  | _ => exact .inl rfl

namespace IsFlat

theorem parts_ne_nil (h : o.IsFlat) (connective : Connective) : o.parts connective ≠ [] := by
  obtain hself | ⟨os, rfl, hos⟩ := parts_eq_or_exists connective o
  · rw [hself]
    exact List.cons_ne_nil _ _
  · cases h with
    | compound hlength _ _ =>
        rw [hos]
        exact List.ne_nil_of_length_pos (by omega)

theorem of_mem_parts (h : o.IsFlat) (hx : x ∈ o.parts connective) :
    x.IsFlat ∧ x.parts connective = [x] := by
  obtain hself | ⟨os, rfl, hos⟩ := parts_eq_or_exists connective o
  · rw [hself, List.mem_singleton] at hx
    subst hx
    exact ⟨h, hself⟩
  · rw [hos] at hx
    cases h with
    | compound _ hflat hparts => exact ⟨hflat x hx, hparts x hx⟩

theorem length_flatMap_parts (hos : ∀ o ∈ os, o.IsFlat) (connective : Connective) :
    os.length ≤ (os.flatMap (parts connective)).length := by
  induction os with
  | nil => exact Nat.le_refl 0
  | cons o os ih =>
      obtain ⟨ho, hos⟩ := List.forall_mem_cons.1 hos
      have hfirst := List.length_pos_iff.2 (ho.parts_ne_nil connective)
      have hrest := ih hos
      rw [List.flatMap_cons, List.length_append, List.length_cons]
      omega

theorem join (hne : os ≠ []) (hos : ∀ o ∈ os, o.IsFlat) (connective : Connective) :
    (join connective os).IsFlat := by
  by_cases hlength : os.length = 1
  · obtain ⟨o, rfl⟩ := List.length_eq_one_iff.1 hlength
    exact hos o List.mem_cons_self
  · have hmem {x : Outline} (hx : x ∈ os.flatMap (parts connective)) :
        x.IsFlat ∧ x.parts connective = [x] := by
      obtain ⟨o, ho, hx⟩ := List.mem_flatMap.1 hx
      exact (hos o ho).of_mem_parts hx
    have hpos := List.length_pos_iff.2 hne
    have hmore := length_flatMap_parts hos connective
    rw [join_of_length_ne hlength]
    exact .compound (by omega) (fun x hx => (hmem hx).1) (fun x hx => (hmem hx).2)

theorem join_pair {p : Outline} (ho : o.IsFlat) (hp : p.IsFlat) (connective : Connective) :
    (Outline.join connective [o, p]).IsFlat :=
  .join (List.cons_ne_nil _ _) (by simp [ho, hp]) connective

/-- A flat outline is put together from its parts. -/
theorem join_parts (h : o.IsFlat) (connective : Connective) :
    Outline.join connective (o.parts connective) = o := by
  obtain hself | ⟨os, rfl, hos⟩ := parts_eq_or_exists connective o
  · rw [hself, Outline.join]
  · rw [hos]
    cases h with
    | compound hlength _ hparts =>
        rw [join_of_length_ne (by omega), List.flatMap_congr hparts, List.flatMap_singleton']

end IsFlat

/-- Next to its own connective a compound is written as its parts are. -/
theorem textUnder_eq (connective : Connective) (o : Outline) : o.textUnder connective =
    connective.separator.intercalate ((o.parts connective).map (textUnder connective)) := by
  obtain hself | ⟨os, rfl, hos⟩ := parts_eq_or_exists connective o
  · rw [hself, List.map_singleton, String.intercalate_singleton]
  · rw [hos, ← texts_eq_map]
    exact Rank.enclose_of_le (Nat.le_refl _) _

theorem intercalate_flatMap_parts (hos : ∀ o ∈ os, o.IsFlat) (connective : Connective) :
    connective.separator.intercalate
        ((os.flatMap (parts connective)).map (textUnder connective)) =
      connective.separator.intercalate (os.map (textUnder connective)) := by
  induction os with
  | nil => rfl
  | cons o os ih =>
      obtain ⟨ho, hos⟩ := List.forall_mem_cons.1 hos
      cases os with
      | nil => simp [textUnder_eq connective o]
      | cons p os =>
          have hfirst : (o.parts connective).map (textUnder connective) ≠ [] := by
            simpa using ho.parts_ne_nil connective
          have hrest : ((p :: os).flatMap (parts connective)).map (textUnder connective) ≠ [] := by
            have hp := (hos p List.mem_cons_self).parts_ne_nil connective
            simp [hp]
          calc connective.separator.intercalate
                (((o :: p :: os).flatMap (parts connective)).map (textUnder connective))
              = o.textUnder connective ++ connective.separator ++
                  connective.separator.intercalate
                    (((p :: os).flatMap (parts connective)).map (textUnder connective)) := by
                rw [List.flatMap_cons, List.map_append,
                  String.intercalate_append_of_ne_nil hfirst hrest, ← textUnder_eq]
            _ = connective.separator.intercalate ((o :: p :: os).map (textUnder connective)) := by
                rw [ih hos]
                exact (String.intercalate_cons_of_ne_nil (by simp)).symm

/-- Outlines that are put together are written one after another. -/
theorem text_join (hlength : os.length ≠ 1) (hos : ∀ o ∈ os, o.IsFlat)
    (connective : Connective) : (join connective os).text =
      connective.separator.intercalate (os.map (textUnder connective)) := by
  rw [← intercalate_flatMap_parts hos, join_of_length_ne hlength, text, texts_eq_map]

end Outline

namespace Grammar

namespace Writer

/-- A writer that writes a certain text, if anything. -/
def WritesOnly (w : Writer) (text : String) : Prop :=
  ∀ r text' s, w r = some (text', s) → text' = text

variable {w : Writer} {text : String}

theorem writesOnly_text (s : String) : (Writer.text s).WritesOnly s := by
  intro r text' s' h
  cases h
  rfl

theorem writesOnly_enclosed {own : Rank} {rank : Ranking}
    (hrank : ∀ active own' after, rank active = some (own', after) → own' = own)
    (hw : w.WritesOnly text) (context : Rank) :
    (enclosed context rank w).WritesOnly (context.enclose own text) := by
  intro r text' s h
  obtain ⟨own', active, inner, hown, hinner, rfl⟩ := eq_of_enclosed h
  rw [hrank _ _ _ hown, hw _ _ _ hinner]

theorem writesOnly_around (hw : w.WritesOnly text) (before after : String) :
    (around before after w).WritesOnly (before ++ text ++ after) := by
  intro r text' s h
  obtain ⟨inner, hinner, rfl⟩ := eq_of_around h
  rw [hw _ _ _ hinner]

theorem writesOnly_separated {ws : List Writer} {texts : List String}
    (hws : List.Forall₂ WritesOnly ws texts) (separator : String) :
    (separated separator ws).WritesOnly (separator.intercalate texts) := by
  intro r text' s h
  obtain ⟨written, heach, rfl⟩ := eq_of_separated h
  refine congrArg separator.intercalate ?_
  clear h
  induction hws generalizing r written with
  | nil =>
      cases heach
      rfl
  | cons hw _ ih =>
      obtain ⟨first, r', rest, hfirst, hrest, rfl⟩ := eq_of_each_cons heach
      rw [hw _ _ _ hfirst, ih r' rest hrest]

end Writer

variable {σ : Type}

/-- Put together from classes, symbols, literal texts, `succ` and `fail` by sequences, choices,
repetitions, options, lists with separators, groups and wrappers. -/
inductive IsElementary : Grammar σ → Prop
  | ofClass (cls : SymbolClass) : IsElementary (.accept (.ofClass cls))
  | symbol (c : Char) : IsElementary (.accept (.symbol c))
  | literal (text : String) : IsElementary (.literal text)
  | succeed : IsElementary .succeed
  | fail : IsElementary .fail
  | sequence {a b : Grammar σ} (ha : IsElementary a) (hb : IsElementary b) :
      IsElementary (.sequence a b)
  | choice {a b : Grammar σ} (ha : IsElementary a) (hb : IsElementary b) :
      IsElementary (.choice a b)
  | many {g : Grammar σ} (hg : IsElementary g) : IsElementary (.many g)
  | manyOne {g : Grammar σ} (hg : IsElementary g) : IsElementary (.manyOne g)
  | option {g : Grammar σ} (hg : IsElementary g) : IsElementary (.option g)
  | sepBy {item separator : Grammar σ} (hitem : IsElementary item)
      (hseparator : IsElementary separator) : IsElementary (.sepBy item separator)
  | all (kind : Kind) (action : Action σ) {parts : List (Kind × Grammar σ)} (hne : parts ≠ [])
      (hparts : ∀ part ∈ parts, IsElementary part.2) : IsElementary (.all kind action parts)
  | any (kind : Kind) (action : Action σ) {parts : List (Kind × Grammar σ)} (hne : parts ≠ [])
      (hparts : ∀ part ∈ parts, IsElementary part.2) : IsElementary (.any kind action parts)
  | discard {g : Grammar σ} (hg : IsElementary g) : IsElementary (.discard g)
  | attempt {g : Grammar σ} (hg : IsElementary g) : IsElementary (.attempt g)
  | attemptPure {g : Grammar σ} (hg : IsElementary g) : IsElementary (.attemptPure g)
  | strict (message : String) {g : Grammar σ} (hg : IsElementary g) :
      IsElementary (.strict message g)
  | trace (label : String) {g : Grammar σ} (hg : IsElementary g) : IsElementary (.trace label g)
  | token {g : Grammar σ} (hg : IsElementary g) : IsElementary (.token g)
  | shared {g : Grammar σ} (hg : IsElementary g) : IsElementary (.shared g)

/-- The outline of an elementary grammar. For whatever is not elementary `fail` stands in. -/
def outline : Grammar σ → Outline
  | .accept (.ofClass cls) => .word (.ofClass cls)
  | .accept (.symbol c) => .symbol c
  | .literal text => .literal text
  | .succeed => .word .succeed
  | .sequence a b => .join .sequence [a.outline, b.outline]
  | .choice a b => .join .choice [a.outline, b.outline]
  | .repetition 0 g => .bracketed .many g.outline
  | .repetition _ g => .bracketed .manyOne g.outline
  | .option g => .bracketed .option g.outline
  | .sepBy item separator =>
    .join .sequence
      [item.outline, .bracketed .many (.join .sequence [separator.outline, item.outline])]
  | .all _ _ parts => .join .sequence (outlines parts)
  | .any _ _ parts => .join .choice (outlines parts)
  | .discard g | .attempt g | .attemptPure g | .strict _ g | .trace _ g | .token g | .shared g =>
    g.outline
  | _ => .word .fail
where
  outlines : List (Kind × Grammar σ) → List Outline
    | [] => []
    | (_, g) :: parts => g.outline :: outlines parts

theorem outlines_eq_map (parts : List (Kind × Grammar σ)) :
    outline.outlines parts = parts.map fun part => part.2.outline := by
  induction parts with
  | nil => rfl
  | cons part parts ih => rw [outline.outlines, ih, List.map_cons]

namespace IsElementary

variable {g : Grammar σ} {store : Store σ}

theorem isFlat_outline (h : g.IsElementary) : g.outline.IsFlat := by
  have hgroup (connective : Outline.Connective) {parts : List (Kind × Grammar σ)}
      (hne : parts ≠ []) (hparts : ∀ part ∈ parts, part.2.outline.IsFlat) :
      (Outline.join connective (outline.outlines parts)).IsFlat := by
    rw [outlines_eq_map]
    exact .join (by simpa using hne) (List.forall_mem_map.2 hparts) connective
  induction h with
  | ofClass cls => exact .word _
  | symbol c => exact .symbol c
  | literal text => exact .literal text
  | succeed | fail => exact .word _
  | sequence _ _ iha ihb => exact iha.join_pair ihb .sequence
  | choice _ _ iha ihb => exact iha.join_pair ihb .choice
  | many _ ih | manyOne _ ih | option _ ih => exact .bracketed _ ih
  | sepBy _ _ ihitem ihseparator =>
      exact ihitem.join_pair (.bracketed .many (ihseparator.join_pair ihitem .sequence)) .sequence
  | all _ _ hne _ ih => exact hgroup .sequence hne ih
  | any _ _ hne _ ih => exact hgroup .choice hne ih
  | discard _ ih | attempt _ ih | attemptPure _ ih | strict _ _ ih | trace _ _ ih | token _ ih
  | shared _ ih => exact ih

theorem rank_outline (h : g.IsElementary) {n : Nat} {active after : List Slot} {own : Rank}
    (hrank : g.rankWithin store n active = some (own, after)) : own = g.outline.rank := by
  induction h generalizing n active own after with
  | @all _ _ parts hne _ ih | @any _ _ parts hne _ ih =>
      cases n with
      | zero => cases hrank
      | succ n =>
          rw [outline, outlines_eq_map]
          match parts with
          | [] => exact absurd rfl hne
          | [part] => exact ih part List.mem_cons_self hrank
          | _ :: _ :: _ =>
              cases hrank
              rfl
  | discard _ ih | attempt _ ih | attemptPure _ ih | strict _ _ ih | trace _ _ ih | token _ ih
  | shared _ ih =>
      cases n with
      | zero => cases hrank
      | succ n => exact ih hrank
  | _ =>
      cases n with
      | zero => cases hrank
      | succ n =>
          cases hrank
          rfl

/-- Two parts with a connective between them. -/
theorem writesOnly_pair {connective : Outline.Connective} {o p : Outline} {v w : Writer}
    (ho : o.IsFlat) (hp : p.IsFlat) (hv : v.WritesOnly (o.textUnder connective))
    (hw : w.WritesOnly (p.textUnder connective)) :
    (Writer.separated connective.separator [v, w]).WritesOnly
      (Outline.join connective [o, p]).text := by
  rw [Outline.text_join (by simp) (by simp [ho, hp])]
  exact Writer.writesOnly_separated (.cons hv (.cons hw .nil)) _

/-- All parts of a group with connectives between them. -/
theorem writesOnly_group {connective : Outline.Connective} (under : Grammar σ → Writer)
    {parts : List (Kind × Grammar σ)} (hlength : parts.length ≠ 1)
    (hparts : ∀ part ∈ parts, part.2.outline.IsFlat ∧
      (under part.2).WritesOnly (part.2.outline.textUnder connective)) :
    (Writer.separated connective.separator (parts.map fun part => under part.2)).WritesOnly
      (Outline.join connective (outline.outlines parts)).text := by
  have hflat : ∀ o ∈ parts.map fun part => part.2.outline, o.IsFlat :=
    List.forall_mem_map.2 fun part hpart => (hparts part hpart).1
  rw [outlines_eq_map, Outline.text_join (by simpa using hlength) hflat, List.map_map]
  refine Writer.writesOnly_separated (List.forall₂_map_left_iff.2 (List.forall₂_map_right_iff.2
    (List.forall₂_same.2 fun part hpart => ?_))) _
  exact (hparts part hpart).2

/-- An elementary grammar is written as its outline. -/
theorem writesOnly_writeWithin (h : g.IsElementary) (n : Nat) :
    (g.writeWithin store n).WritesOnly g.outline.text := by
  induction n generalizing g with
  | zero =>
      intro r text s h
      cases h
  | succ n ih =>
      let under (connective : Outline.Connective) (g : Grammar σ) : Writer :=
        .enclosed connective.rank (g.rankWithin store n) (g.writeWithin store n)
      have hunder {g : Grammar σ} (hg : g.IsElementary) (connective : Outline.Connective) :
          (under connective g).WritesOnly (g.outline.textUnder connective) :=
        Writer.writesOnly_enclosed (fun _ _ _ => hg.rank_outline) (ih hg) connective.rank
      have hgroup (connective : Outline.Connective) {parts : List (Kind × Grammar σ)}
          (hlength : parts.length ≠ 1) (hparts : ∀ part ∈ parts, part.2.IsElementary) :=
        writesOnly_group (under connective) hlength fun part hpart =>
          ⟨(hparts part hpart).isFlat_outline, hunder (hparts part hpart) connective⟩
      cases h with
      | ofClass | symbol | literal | succeed | fail => exact Writer.writesOnly_text _
      | sequence ha hb =>
          exact writesOnly_pair ha.isFlat_outline hb.isFlat_outline (hunder ha .sequence)
            (hunder hb .sequence)
      | choice ha hb =>
          exact writesOnly_pair ha.isFlat_outline hb.isFlat_outline (hunder ha .choice)
            (hunder hb .choice)
      | many hg | manyOne hg | option hg => exact Writer.writesOnly_around (ih hg) _ _
      | sepBy hitem hseparator =>
          have hseparatorFlat := hseparator.isFlat_outline
          have hitemFlat := hitem.isFlat_outline
          have hmore := writesOnly_pair hseparatorFlat hitemFlat (hunder hseparator .sequence)
            (hunder hitem .sequence)
          exact writesOnly_pair hitemFlat
            (.bracketed .many (hseparatorFlat.join_pair hitemFlat .sequence))
            (hunder hitem .sequence) (Writer.writesOnly_around hmore "\x7b" "\x7d")
      | @all _ _ parts hne hparts =>
          match parts with
          | [] => exact absurd rfl hne
          | [part] => exact ih (hparts part List.mem_cons_self)
          | _ :: _ :: _ => exact hgroup .sequence (by simp) hparts
      | @any _ _ parts hne hparts =>
          match parts with
          | [] => exact absurd rfl hne
          | [part] => exact ih (hparts part List.mem_cons_self)
          | _ :: _ :: _ => exact hgroup .choice (by simp) hparts
      | discard hg | attempt hg | attemptPure hg | strict _ hg | trace _ hg | token hg
      | shared hg => exact ih hg

/-- The written form of an elementary grammar is that of its outline, over every store. -/
theorem ebnf_eq (h : g.IsElementary) (store : Store σ) : store.ebnf g = some g.outline.text := by
  obtain ⟨text, s, hwritten, -⟩ := store.exists_write g (.fresh none)
  rw [Store.ebnf, hwritten]
  exact congrArg some (h.writesOnly_writeWithin _ _ _ _ hwritten)

end IsElementary

end Grammar

end ParserAlgebra
