import ParserAlgebra.Predicate
import ParserAlgebra.Proofs.SelfDelimiting

/-!
# The name of a predicate tells what it accepts

A predicate that is built from the named classes, symbols and the end of the input can be read back
from its written form, up to the grouping of unions of several. Atoms show where they end; a
difference is an atom and the atoms taken from it, one after the other; a union is its summands,
which are differences.
-/

namespace ParserAlgebra

namespace Predicate

/-- Built without tests of one's own, of which a name says nothing. -/
def isBuiltIn : Predicate → Bool
  | .ofClass _ | .symbol _ | .endOfInput => true
  | .satisfy _ _ => false
  | .complement p => p.isBuiltIn
  | .either p q | .difference p q => p.isBuiltIn && q.isBuiltIn

/-- Predicates that differ in the grouping of unions of several, if in anything. -/
inductive Regrouped : Predicate → Predicate → Prop
  | refl (p : Predicate) : Regrouped p p
  | symm {p q : Predicate} (h : Regrouped p q) : Regrouped q p
  | trans {p q r : Predicate} (hpq : Regrouped p q) (hqr : Regrouped q r) : Regrouped p r
  | assoc (p q r : Predicate) : Regrouped (.either (.either p q) r) (.either p (.either q r))
  | either {p p' q q' : Predicate} (hp : Regrouped p p') (hq : Regrouped q q') :
      Regrouped (.either p q) (.either p' q')
  | complement {p p' : Predicate} (hp : Regrouped p p') : Regrouped (.complement p) (.complement p')
  | difference {p p' q q' : Predicate} (hp : Regrouped p p') (hq : Regrouped q q') :
      Regrouped (.difference p q) (.difference p' q')

namespace Regrouped

variable {p q : Predicate}

theorem accepts_eq (h : p.Regrouped q) (s : Option Char) : p.accepts s = q.accepts s := by
  induction h with
  | refl p => rfl
  | symm _ ih => exact ih.symm
  | trans _ _ ihpq ihqr => exact ihpq.trans ihqr
  | assoc p q r => exact Bool.or_assoc _ _ _
  | either _ _ ihp ihq | difference _ _ ihp ihq => rw [accepts, accepts, ihp, ihq]
  | complement _ ih => rw [accepts, accepts, ih]

theorem rank_eq (h : p.Regrouped q) : p.rank = q.rank := by
  induction h with
  | symm _ ih => exact ih.symm
  | trans _ _ ihpq ihqr => exact ihpq.trans ihqr
  | refl | assoc | either | complement | difference => rfl

/-- Grouping is not written. -/
theorem name_eq (h : p.Regrouped q) : p.name = q.name := by
  induction h with
  | refl p => rfl
  | symm _ ih => exact ih.symm
  | trans _ _ ihpq ihqr => exact ihpq.trans ihqr
  | assoc p q r => simp [name, rank, Rank.enclose, String.append_assoc]
  | either hp hq ihp ihq | difference hp hq ihp ihq =>
      rw [name, name, hp.rank_eq, hq.rank_eq, ihp, ihq]
  | complement hp ih => rw [name, name, hp.rank_eq, ih]

end Regrouped

/-- The text of a predicate where nothing but an atom may stand. -/
def atomText (p : Predicate) : List Char :=
  (Rank.atom.enclose p.rank p.name).toList

/-- The text of a predicate where a difference may stand. -/
def termText (p : Predicate) : List Char :=
  (Rank.except.enclose p.rank p.name).toList

/-- What a difference takes from, and what it takes away. -/
def spine : Predicate → Predicate × List Predicate
  | .difference p q => (p.spine.1, p.spine.2 ++ [q])
  | p => (p, [])

/-- The first summand of a union, and the other ones. -/
def summands : Predicate → Predicate × List Predicate
  | .either p q => (p.summands.1, p.summands.2 ++ q.summands.1 :: q.summands.2)
  | p => (p, [])

def minus : List Char := [' ', '-', ' ']

def bar : List Char := [' ', '|', ' ']

/-- The atoms of a difference, the first of which the other ones are taken from. -/
def atoms (p : Predicate) : List Predicate :=
  p.spine.1 :: p.spine.2

/-- The summands of a union. -/
def terms (p : Predicate) : List Predicate :=
  p.summands.1 :: p.summands.2

variable {p q x : Predicate} {s t : List Char}

section Texts

theorem termText_eq (p : Predicate) :
    p.termText = p.spine.1.atomText ++ separatedBy minus atomText p.spine.2 := by
  induction p with
  | difference p q ihp _ =>
      have htext : (difference p q).termText = p.termText ++ (minus ++ q.atomText) := by
        simp [termText, atomText, name, rank, Rank.enclose_of_le, minus]
      rw [htext, ihp]
      simp [spine]
  | ofClass | symbol | endOfInput | satisfy | complement | either =>
      simp [termText, atomText, spine, rank, Rank.enclose, Rank.looseness]

theorem name_eq (p : Predicate) :
    p.name.toList = p.summands.1.termText ++ separatedBy bar termText p.summands.2 := by
  induction p with
  | either p q ihp ihq =>
      have hloosest : ∀ own : Rank, own.looseness ≤ Rank.choice.looseness := by
        intro own
        cases own <;> decide
      have hchoice (r : Predicate) : Rank.choice.enclose r.rank r.name = r.name :=
        Rank.enclose_of_le (hloosest _) _
      have htext : (either p q).name.toList = p.name.toList ++ (bar ++ q.name.toList) := by
        simp [name, hchoice, bar]
      rw [htext, ihp, ihq]
      simp [summands]
  | ofClass | symbol | endOfInput | satisfy | complement | difference =>
      simp [termText, summands, rank, Rank.enclose, Rank.looseness]

end Texts

section Parts

theorem isBuiltIn_of_mem_atoms (hp : p.isBuiltIn = true) (hx : x ∈ p.atoms) :
    x.isBuiltIn = true := by
  induction p with
  | difference p q ihp _ =>
      obtain ⟨hp, hq⟩ := Bool.and_eq_true_iff.1 hp
      have hmem : x ∈ p.atoms ++ [q] := hx
      rcases List.mem_append.1 hmem with hx | hx
      · exact ihp hp hx
      · rwa [List.mem_singleton.1 hx]
  | ofClass | symbol | endOfInput | satisfy | complement | either =>
      rwa [List.mem_singleton.1 hx]

theorem isBuiltIn_of_mem_terms (hp : p.isBuiltIn = true) (hx : x ∈ p.terms) :
    x.isBuiltIn = true := by
  induction p with
  | either p q ihp ihq =>
      obtain ⟨hp, hq⟩ := Bool.and_eq_true_iff.1 hp
      have hmem : x ∈ p.terms ++ q.terms := hx
      rcases List.mem_append.1 hmem with hx | hx
      · exact ihp hp hx
      · exact ihq hq hx
  | ofClass | symbol | endOfInput | satisfy | complement | difference =>
      rwa [List.mem_singleton.1 hx]

theorem foldl_spine (p : Predicate) : p.spine.2.foldl difference p.spine.1 = p := by
  induction p with
  | difference p q ihp _ => rw [spine, List.foldl_append, ihp, List.foldl_cons, List.foldl_nil]
  | ofClass | symbol | endOfInput | satisfy | complement | either => rfl

theorem Regrouped.foldl {f : Predicate → Predicate → Predicate}
    (hf : ∀ {p p' q q'}, Regrouped p p' → Regrouped q q' → Regrouped (f p q) (f p' q'))
    (h : Regrouped p q) {ps qs : List Predicate} (hall : List.Forall₂ Regrouped ps qs) :
    Regrouped (ps.foldl f p) (qs.foldl f q) := by
  induction hall generalizing p q with
  | nil => exact h
  | cons hfirst _ ih => exact ih (hf h hfirst)

theorem regrouped_either_foldl (p q : Predicate) (qs : List Predicate) :
    Regrouped (.either p (qs.foldl .either q)) (qs.foldl .either (.either p q)) := by
  induction qs generalizing q with
  | nil => exact .refl _
  | cons r qs ih =>
      have hall : List.Forall₂ Regrouped qs qs := List.forall₂_same.2 fun r _ => .refl r
      exact (ih (.either q r)).trans ((Regrouped.assoc p q r).symm.foldl .either hall)

/-- A union is its summands put together from the left, but for the grouping. -/
theorem regrouped_foldl_summands (p : Predicate) :
    p.Regrouped (p.summands.2.foldl .either p.summands.1) := by
  induction p with
  | either p q ihp ihq =>
      rw [summands, List.foldl_append, List.foldl_cons]
      exact (ihp.either ihq).trans (regrouped_either_foldl _ _ _)
  | ofClass | symbol | endOfInput | satisfy | complement | difference => exact .refl _

end Parts

section Atoms

/-- How the text of an atom begins. -/
inductive Shape where
  | word
  | quoted
  | negated
  | enclosed

def Shape.ofSymbol : Char → Shape
  | '\'' => .quoted
  | '~' => .negated
  | '(' => .enclosed
  | _ => .word

def shape : Predicate → Shape
  | .symbol _ => .quoted
  | .complement _ => .negated
  | .either _ _ | .difference _ _ => .enclosed
  | .ofClass _ | .endOfInput | .satisfy _ _ => .word

/-- The predicates with a name of their own: a class, or the end of the input. -/
def word : Option SymbolClass → Predicate
  | some cls => .ofClass cls
  | none => .endOfInput

theorem exists_word (hp : p.isBuiltIn = true) (hshape : p.shape = .word) : ∃ w, p = word w := by
  cases p with
  | ofClass cls => exact ⟨some cls, rfl⟩
  | endOfInput => exact ⟨none, rfl⟩
  | satisfy => cases hp
  | symbol | complement | either | difference => cases hshape

/-- No word begins another one. -/
theorem eq_of_word_begins {v w : Option SymbolClass}
    (h : (word v).name.toList <+: (word w).name.toList) : v = w := by
  revert h
  rcases v with _ | ⟨⟨⟩⟩ <;> rcases w with _ | ⟨⟨⟩⟩ <;> decide

theorem atomText_of_shape_enclosed (hshape : p.shape = .enclosed) :
    p.atomText = '(' :: (p.name.toList ++ [')']) := by
  cases p with
  | either | difference => simp [atomText, rank, Rank.enclose, Rank.looseness]
  | ofClass | symbol | endOfInput | satisfy | complement => cases hshape

theorem atomText_complement (p : Predicate) : (complement p).atomText = '~' :: p.atomText := by
  simp [atomText, name, rank]

theorem map_ofSymbol_head_atomText (hp : p.isBuiltIn = true) :
    p.atomText.head?.map Shape.ofSymbol = some p.shape := by
  cases p with
  | ofClass cls => cases cls <;> rfl
  | symbol c => simp [atomText, name, rank, Text.quoteSymbol, Shape.ofSymbol, shape]
  | endOfInput => rfl
  | satisfy => cases hp
  | complement p => rw [atomText_complement]; rfl
  | either | difference => rw [atomText_of_shape_enclosed rfl]; rfl

theorem shape_eq (hp : p.isBuiltIn = true) (hq : q.isBuiltIn = true)
    (h : p.atomText ++ s = q.atomText ++ t) : p.shape = q.shape := by
  have hhead (r : Predicate) (hr : r.isBuiltIn = true) (u : List Char) :
      (r.atomText ++ u).head?.map Shape.ofSymbol = some r.shape := by
    have hatom := map_ofSymbol_head_atomText hr
    cases htext : r.atomText with
    | nil => rw [htext] at hatom; cases hatom
    | cons x xs => rwa [htext] at hatom
  have hshapes := hhead p hp s
  rw [h, hhead q hq t] at hshapes
  exact (Option.some.inj hshapes).symm

end Atoms

section Reading

/-- The predicate is known by its text as an atom, whatever stands behind it. -/
def Told (p : Predicate) : Prop :=
  ∀ q : Predicate, q.isBuiltIn = true → ReadOff atomText (fun _ => True) Regrouped p q

/-- A difference does not go on here. -/
def EndsTerm (u : List Char) : Prop :=
  ¬ minus <+: u

/-- Neither a difference nor a union goes on here. -/
def EndsName (u : List Char) : Prop :=
  EndsTerm u ∧ ¬ bar <+: u

theorem readOff_term (hp : ∀ x ∈ p.atoms, x.Told) (hq : q.isBuiltIn = true) :
    ReadOff termText EndsTerm Regrouped p q := by
  intro s t hs ht h
  rw [termText_eq, termText_eq, List.append_assoc, List.append_assoc] at h
  have hbuilt (y : Predicate) (hy : y ∈ q.atoms) : y.isBuiltIn = true :=
    isBuiltIn_of_mem_atoms hq hy
  obtain ⟨hfirst, hrest⟩ := hp _ List.mem_cons_self _ (hbuilt _ List.mem_cons_self) _ _
    trivial trivial h
  obtain ⟨hall, hst⟩ := forall₂_of_separatedBy (fun _ => trivial)
    (fun x hx y hy => hp x (List.mem_cons_of_mem _ hx) y (hbuilt y (List.mem_cons_of_mem _ hy)))
    trivial trivial hs ht hrest
  have hsame := hfirst.foldl .difference hall
  rw [foldl_spine, foldl_spine] at hsame
  exact ⟨hsame, hst⟩

theorem readOff_name (hp : ∀ x ∈ p.terms, ∀ y ∈ x.atoms, y.Told) (hq : q.isBuiltIn = true) :
    ReadOff (fun p => p.name.toList) EndsName Regrouped p q := by
  intro s t hs ht h
  have hbuilt (y : Predicate) (hy : y ∈ q.terms) : y.isBuiltIn = true :=
    isBuiltIn_of_mem_terms hq hy
  have hends (u : List Char) : EndsTerm (bar ++ u) := by
    simp [EndsTerm, minus, bar, List.cons_prefix_cons]
  simp only [name_eq, List.append_assoc] at h
  obtain ⟨hfirst, hrest⟩ := readOff_term (hp _ List.mem_cons_self)
    (hbuilt _ List.mem_cons_self) _ _ (ends_separatedBy hends hs.1) (ends_separatedBy hends ht.1) h
  obtain ⟨hall, hst⟩ := forall₂_of_separatedBy hends
    (fun x hx y hy => readOff_term (hp x (List.mem_cons_of_mem _ hx))
      (hbuilt y (List.mem_cons_of_mem _ hy))) hs.1 ht.1 hs.2 ht.2 hrest
  exact ⟨(regrouped_foldl_summands p).trans
    ((hfirst.foldl .either hall).trans (regrouped_foldl_summands q).symm), hst⟩

theorem told_word (w : Option SymbolClass) : (word w).Told := by
  intro q hq s t _ _ h
  have hword : (word w).isBuiltIn = true := by cases w <;> rfl
  have hshape : (word w).shape = .word := by cases w <;> rfl
  obtain ⟨v, rfl⟩ := exists_word hq ((shape_eq hword hq h).symm.trans hshape)
  have htext (u : Option SymbolClass) : (word u).atomText = (word u).name.toList := by
    cases u <;> rfl
  rw [htext, htext] at h
  have heq : w = v := by
    rcases List.append_eq_append_iff.1 h with ⟨more, hv, -⟩ | ⟨more, hw, -⟩
    · exact eq_of_word_begins ⟨more, hv.symm⟩
    · exact (eq_of_word_begins ⟨more, hw.symm⟩).symm
  subst heq
  exact ⟨.refl _, List.append_cancel_left h⟩

theorem told_symbol (c : Char) : (symbol c).Told := by
  intro q hq s t _ _ h
  have hshape := shape_eq rfl hq h
  cases q with
  | symbol d =>
      obtain ⟨rfl, hst⟩ := Text.eq_of_quoteSymbol_append h
      exact ⟨.refl _, hst⟩
  | ofClass | endOfInput | satisfy | complement | either | difference => cases hshape

theorem told_complement (hp : (complement p).isBuiltIn = true) (h : p.Told) :
    (complement p).Told := by
  intro q hq s t _ _ heq
  have hshape := shape_eq hp hq heq
  cases q with
  | complement q =>
      rw [atomText_complement, atomText_complement] at heq
      obtain ⟨hsame, hst⟩ := h q hq s t trivial trivial (List.cons.inj heq).2
      exact ⟨hsame.complement, hst⟩
  | ofClass | symbol | endOfInput | satisfy | either | difference => cases hshape

theorem told_of_shape_enclosed (hp : p.isBuiltIn = true) (hshape : p.shape = .enclosed)
    (h : ∀ x ∈ p.terms, ∀ y ∈ x.atoms, y.Told) : p.Told := by
  intro q hq s t _ _ heq
  have hshape' : q.shape = .enclosed := (shape_eq hp hq heq).symm.trans hshape
  rw [atomText_of_shape_enclosed hshape, atomText_of_shape_enclosed hshape'] at heq
  have hclose (u : List Char) : EndsName (')' :: u) := by
    simp [EndsName, EndsTerm, minus, bar, List.cons_prefix_cons]
  have hinner : p.name.toList ++ ')' :: s = q.name.toList ++ ')' :: t := by
    simpa using heq
  obtain ⟨hsame, hrest⟩ := readOff_name h hq _ _ (hclose s) (hclose t) hinner
  exact ⟨hsame, (List.cons.inj hrest).2⟩

/-- A predicate is known by its text as an atom, and so are the atoms it is put together from where
its text stands as a difference or as a union. -/
structure Readable (p : Predicate) : Prop where
  told : p.Told
  atoms : ∀ x ∈ p.atoms, x.Told
  terms : ∀ x ∈ p.terms, ∀ y ∈ x.atoms, y.Told

theorem Told.readable (h : p.Told) (hatoms : p.atoms = [p]) (hterms : p.terms = [p]) :
    p.Readable := by
  have hself : ∀ y ∈ p.atoms, y.Told := by
    intro y hy
    rw [hatoms, List.mem_singleton] at hy
    rwa [hy]
  refine ⟨h, hself, ?_⟩
  intro x hx
  rw [hterms, List.mem_singleton] at hx
  rwa [hx]

theorem readable_either (hp : p.Readable) (hq : q.Readable)
    (hbuilt : (either p q).isBuiltIn = true) : (either p q).Readable := by
  have hterms : ∀ x ∈ (either p q).terms, ∀ y ∈ x.atoms, y.Told := by
    intro x hx
    have hmem : x ∈ p.terms ++ q.terms := hx
    exact (List.mem_append.1 hmem).elim (hp.terms x) (hq.terms x)
  have htold := told_of_shape_enclosed hbuilt rfl hterms
  refine ⟨htold, ?_, hterms⟩
  intro x hx
  rwa [List.mem_singleton.1 hx]

theorem readable_difference (hp : p.Readable) (hq : q.Readable)
    (hbuilt : (difference p q).isBuiltIn = true) : (difference p q).Readable := by
  have hatoms : ∀ x ∈ (difference p q).atoms, x.Told := by
    intro x hx
    have hmem : x ∈ p.atoms ++ [q] := hx
    rcases List.mem_append.1 hmem with hx | hx
    · exact hp.atoms x hx
    · rw [List.mem_singleton.1 hx]
      exact hq.told
  have hterms : ∀ x ∈ (difference p q).terms, ∀ y ∈ x.atoms, y.Told := by
    intro x hx
    rwa [List.mem_singleton.1 hx]
  exact ⟨told_of_shape_enclosed hbuilt rfl hterms, hatoms, hterms⟩

theorem readable (hp : p.isBuiltIn = true) : p.Readable := by
  induction p with
  | ofClass cls => exact (told_word (some cls)).readable rfl rfl
  | symbol c => exact (told_symbol c).readable rfl rfl
  | endOfInput => exact (told_word none).readable rfl rfl
  | satisfy => cases hp
  | complement p ih => exact (told_complement hp (ih hp).told).readable rfl rfl
  | either p q ihp ihq =>
      obtain ⟨hleft, hright⟩ := Bool.and_eq_true_iff.1 hp
      exact readable_either (ihp hleft) (ihq hright) hp
  | difference p q ihp ihq =>
      obtain ⟨hbase, hexcluded⟩ := Bool.and_eq_true_iff.1 hp
      exact readable_difference (ihp hbase) (ihq hexcluded) hp

/-- Built-in predicates with the same name accept the same symbols, and the end of the input or not.
From the name a predicate can be read back up to the grouping of unions. -/
theorem accepts_eq_of_name_eq (p q : Predicate) (hp : p.isBuiltIn = true)
    (hq : q.isBuiltIn = true) :
    (p.name = q.name ↔ p.Regrouped q) ∧
      (p.name = q.name → ∀ s : Option Char, p.accepts s = q.accepts s) := by
  have hread (h : p.name = q.name) : p.Regrouped q := by
    have hends : EndsName [] := by simp [EndsName, EndsTerm, minus, bar]
    have htext : p.name.toList ++ [] = q.name.toList ++ [] := by rw [h]
    exact (readOff_name (readable hp).terms hq _ _ hends hends htext).1
  exact ⟨⟨hread, Regrouped.name_eq⟩, fun h s => (hread h).accepts_eq s⟩

/-- Symbols that are operators elsewhere, in a union grouped in two ways. -/
theorem accepts_eq_of_name_eq_grouped :
    let rest := difference (ofClass .anything) (complement (symbol '~'))
    let left := either (either (symbol '|') (symbol '\'')) rest
    let right := either (symbol '|') (either (symbol '\'') rest)
    left.name = "'|' | '\\'' | anything - ~'~'" ∧ left.name = right.name ∧
      ∀ s : Option Char, left.accepts s = right.accepts s := by
  intro rest left right
  have hregrouped : left.Regrouped right := .assoc _ _ _
  have h := accepts_eq_of_name_eq left right rfl rfl
  exact ⟨by decide +kernel, h.1.2 hregrouped, h.2 (h.1.2 hregrouped)⟩

end Reading

end Predicate

end ParserAlgebra
