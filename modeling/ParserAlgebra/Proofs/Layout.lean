import Mathlib.Data.List.TakeWhile
import ParserAlgebra.Proofs.Composition
import ParserAlgebra.Proofs.Recognition
import ParserAlgebra.Proofs.Relocation

/-!
# Layout

The words of a text are its longest runs of symbols without whitespace. A grammar that takes its
input in tokens, each of which is taken from one word and followed by whatever whitespace is there,
cannot tell two texts with the same words apart: it stands at corresponding places of both, and
never before whitespace.
-/

namespace ParserAlgebra

namespace Text

/-- The longest runs of symbols without whitespace. -/
def words (cs : List Char) : List (List Char) :=
  (cs.splitOnP Unicode.isBlank).filter (· ≠ [])

/-- The symbols of a text that are no whitespace. -/
def solid (cs : List Char) : List Char :=
  cs.filter (!Unicode.isBlank ·)

/-- A text without whitespace. -/
def IsSolid (cs : List Char) : Prop :=
  ∀ s ∈ cs, Unicode.isBlank s = false

/-- Where a word ends: nothing is left, or whitespace comes next. -/
def AtGap (cs : List Char) : Prop :=
  ∀ s ∈ cs.head?, Unicode.isBlank s = true

/-- Where whitespace has been skipped: nothing is left, or a word comes next. -/
def AtWord (cs : List Char) : Prop :=
  ∀ s ∈ cs.head?, Unicode.isBlank s = false

variable {s : Char} {cs ds w : List Char}

theorem words_nil : words [] = [] := by
  simp [words]

theorem words_cons_of_isBlank (hs : Unicode.isBlank s = true) (cs : List Char) :
    words (s :: cs) = words cs := by
  simp [words, List.splitOnP_cons_eq_if_modifyHead, hs]

/-- A text that begins with a word. -/
theorem words_append (hw : IsSolid w) (hne : w ≠ []) (hgap : AtGap cs) :
    words (w ++ cs) = w :: words cs := by
  cases cs with
  | nil =>
      rw [List.append_nil, words_nil, words, List.splitOnP_eq_singleton hw]
      simp [hne]
  | cons s cs =>
      have hs : Unicode.isBlank s = true := hgap s rfl
      rw [words_cons_of_isBlank hs, words, words,
        List.splitOnP_append_cons_of_forall_mem hw s hs cs]
      simp [hne]

theorem words_dropWhile (cs : List Char) : words (cs.dropWhile Unicode.isBlank) = words cs := by
  induction cs with
  | nil => rfl
  | cons s cs ih =>
      by_cases hs : Unicode.isBlank s = true
      · rw [List.dropWhile_cons_of_pos hs, ih, words_cons_of_isBlank hs]
      · rw [List.dropWhile_cons_of_neg hs]

theorem atWord_dropWhile (cs : List Char) : AtWord (cs.dropWhile Unicode.isBlank) := by
  intro s hs
  have hhead := List.head?_dropWhile_not Unicode.isBlank cs
  rw [Option.mem_def.1 hs] at hhead
  simpa using hhead

theorem flatten_words (cs : List Char) : (words cs).flatten = solid cs := by
  rw [words, List.flatten_filter_ne_nil]
  induction cs with
  | nil => simp [solid]
  | cons s cs ih =>
      rw [List.splitOnP_cons_eq_if_modifyHead]
      by_cases hs : Unicode.isBlank s = true
      · rw [if_pos hs, List.flatten_cons, List.nil_append, ih]
        simp [solid, hs]
      · have hne := List.splitOnP_ne_nil Unicode.isBlank cs
        obtain ⟨first, rest, hsplit⟩ := List.exists_cons_of_ne_nil hne
        rw [if_neg hs, hsplit, List.modifyHead_cons, List.flatten_cons, List.cons_append,
          ← List.flatten_cons, ← hsplit, ih]
        simp [solid, hs]

theorem solid_append (cs ds : List Char) : solid (cs ++ ds) = solid cs ++ solid ds :=
  List.filter_append cs ds

theorem solid_eq_of_words_eq (h : words cs = words ds) : solid cs = solid ds := by
  rw [← flatten_words, h, flatten_words]

/-- Before a word the first symbol is the first one that is no whitespace. -/
theorem head?_solid (h : AtWord cs) : (solid cs).head? = cs.head? := by
  cases cs with
  | nil => rfl
  | cons s cs =>
      have hs : Unicode.isBlank s = false := h s rfl
      simp [solid, hs]

theorem head?_eq_of_words_eq (h : words cs = words ds) (hcs : AtWord cs) (hds : AtWord ds) :
    cs.head? = ds.head? := by
  rw [← head?_solid hcs, ← head?_solid hds, solid_eq_of_words_eq h]

/-- The word that comes next, and what is behind it. -/
theorem exists_word (h : AtWord cs) :
    ∃ w rest, cs = w ++ rest ∧ IsSolid w ∧ AtGap rest ∧ (w = [] → rest = []) := by
  refine ⟨cs.takeWhile (!Unicode.isBlank ·), cs.dropWhile (!Unicode.isBlank ·),
    List.takeWhile_append_dropWhile.symm, fun s hs => ?_, fun s hs => ?_, fun hw => ?_⟩
  · simpa using List.mem_takeWhile_imp hs
  · have hhead := List.head?_dropWhile_not (!Unicode.isBlank ·) cs
    rw [Option.mem_def.1 hs] at hhead
    simpa using hhead
  · cases cs with
    | nil => rfl
    | cons s cs =>
        have hs : Unicode.isBlank s = false := h s rfl
        simp [hs] at hw

/-- Where texts with the same words stand before a word, it is the same word. -/
theorem exists_common_word (h : words cs = words ds) (hcs : AtWord cs) (hds : AtWord ds) :
    ∃ w rest rest', cs = w ++ rest ∧ ds = w ++ rest' ∧ IsSolid w ∧ AtGap rest ∧ AtGap rest' ∧
      words rest = words rest' ∧ (w = [] → rest = [] ∧ rest' = []) := by
  obtain ⟨w, rest, rfl, hw, hgap, hnil⟩ := exists_word hcs
  obtain ⟨w', rest', rfl, hw', hgap', hnil'⟩ := exists_word hds
  by_cases hempty : w = []
  · obtain rfl := hnil hempty
    subst hempty
    have hempty' : w' = [] := by
      by_contra hne
      rw [words_append hw' hne hgap', List.append_nil, words_nil] at h
      cases h
    obtain rfl := hnil' hempty'
    subst hempty'
    exact ⟨[], [], [], rfl, rfl, hw, hgap, hgap', rfl, fun _ => ⟨rfl, rfl⟩⟩
  · have hempty' : w' ≠ [] := by
      intro hw'
      rw [hw', hnil' hw', List.append_nil, words_nil, words_append hw hempty hgap] at h
      cases h
    rw [words_append hw hempty hgap, words_append hw' hempty' hgap'] at h
    obtain ⟨rfl, hrest⟩ := List.cons.inj h
    exact ⟨w, rest, rest', rfl, rfl, hw, hgap, hgap', hrest, fun hnil => absurd hnil hempty⟩

/-- A text without whitespace comes next if it does so within the word. -/
theorem isPrefix_append_iff {text rest : List Char} (htext : IsSolid text) (hgap : AtGap rest) :
    text <+: w ++ rest ↔ text <+: w := by
  refine ⟨fun h => ?_, fun h => h.trans (List.prefix_append w rest)⟩
  rcases List.prefix_or_prefix_of_prefix h (List.prefix_append w rest) with hle | ⟨more, rfl⟩
  · exact hle
  · cases more with
    | nil => rw [List.append_nil]
    | cons s more =>
        have hs : Unicode.isBlank s = false := htext s (by simp)
        obtain ⟨after, hafter⟩ := (List.prefix_append_right_inj w).1 h
        have hblank : Unicode.isBlank s = true := hgap s (by rw [← hafter]; rfl)
        rw [hs] at hblank
        cases hblank

end Text

variable {σ : Type} {u v : List Char} {c d c' d' : Cursor}

/-- Cursors in two texts with the same words ahead, none of them before whitespace. -/
structure Cursor.SameWords (u v : List Char) (c d : Cursor) : Prop where
  left : c.LiesIn u
  right : d.LiesIn v
  words : Text.words c.ahead = Text.words d.ahead
  atWord : Text.AtWord c.ahead
  atWord' : Text.AtWord d.ahead

/-- Cursors in two texts with the same part `w` of a word ahead and the same words behind it. -/
structure Cursor.SameWord (u v w : List Char) (c d : Cursor) : Prop where
  left : c.LiesIn u
  right : d.LiesIn v
  isSolid : Text.IsSolid w
  ahead : ∃ rest rest', c.ahead = w ++ rest ∧ d.ahead = w ++ rest' ∧ Text.AtGap rest ∧
    Text.AtGap rest' ∧ Text.words rest = Text.words rest'

theorem Place.ahead_skipWhile (test : Char → Bool) (position : Position) (cs : List Char) :
    (skipWhile test position cs).ahead = cs.dropWhile test := by
  induction cs generalizing position with
  | nil => rfl
  | cons s cs ih =>
      rw [skipWhile_cons, List.dropWhile_cons]
      split
      · exact ih _
      · rfl

namespace Cursor

theorem ahead_skipWhile (test : Char → Bool) (c : Cursor) :
    (c.skipWhile test).ahead = c.ahead.dropWhile test :=
  Place.ahead_skipWhile test c.position c.ahead

theorem skipWhile_of_ahead {test : Char → Bool} {s : Char} {rest : List Char}
    (h : c.ahead = s :: rest) (hs : test s = true) :
    c.skipWhile test = skipWhile test { c with place := ⟨c.position.past s, rest⟩ } := by
  unfold skipWhile
  rw [h, Place.skipWhile_cons, if_pos hs]
  rfl

theorem skipWhile_of_head {test : Char → Bool} (h : ∀ s ∈ c.ahead.head?, test s = false) :
    c.skipWhile test = c := by
  obtain ⟨input, ⟨position, ahead⟩, checkpoints⟩ := c
  cases ahead with
  | nil => rfl
  | cons s rest =>
      have hs : test s = false := h s rfl
      change Cursor.mk input (Place.skipWhile test position (s :: rest)) checkpoints = _
      rw [Place.skipWhile_cons, if_neg (by rw [hs]; decide)]

namespace SameWord

variable {w taken : List Char}

/-- Further on in the word, behind the same part of it. -/
theorem onward (h : SameWord u v (taken ++ w) c d) (hc : c.Onward c') (hd : d.Onward d')
    (hahead : c.ahead = taken ++ c'.ahead) (hahead' : d.ahead = taken ++ d'.ahead) :
    SameWord u v w c' d' := by
  obtain ⟨rest, rest', hrest, hrest', hgaps⟩ := h.ahead
  refine ⟨h.left.onward hc, h.right.onward hd,
    fun s hs => h.isSolid s (List.mem_append_right taken hs), rest, rest', ?_, ?_, hgaps⟩
  · rw [hahead, List.append_assoc] at hrest
    exact List.append_cancel_left hrest
  · rw [hahead', List.append_assoc] at hrest'
    exact List.append_cancel_left hrest'

/-- Behind the word the same words come, however much whitespace there is before them. -/
theorem skipBlanks (h : SameWord u v w c d) :
    SameWords u v (c.skipWhile Unicode.isBlank) (d.skipWhile Unicode.isBlank) := by
  obtain ⟨rest, rest', hrest, hrest', hgap, hgap', hwords⟩ := h.ahead
  refine ⟨h.left.onward (c.onward_skipWhile _), h.right.onward (d.onward_skipWhile _), ?_, ?_, ?_⟩
  · rw [ahead_skipWhile, ahead_skipWhile, Text.words_dropWhile, Text.words_dropWhile, hrest, hrest']
    by_cases hw : w = []
    · rw [hw]
      exact hwords
    · rw [Text.words_append h.isSolid hw hgap, Text.words_append h.isSolid hw hgap', hwords]
  · rw [ahead_skipWhile]
    exact Text.atWord_dropWhile _
  · rw [ahead_skipWhile]
    exact Text.atWord_dropWhile _

end SameWord

namespace SameWords

theorem symm (h : SameWords u v c d) : SameWords v u d c :=
  ⟨h.right, h.left, h.words.symm, h.atWord', h.atWord⟩

theorem symbol?_eq (h : SameWords u v c d) : c.symbol? = d.symbol? :=
  Text.head?_eq_of_words_eq h.words h.atWord h.atWord'

theorem exists_sameWord (h : SameWords u v c d) :
    ∃ w, SameWord u v w c d ∧ (w = [] → c.ahead = [] ∧ d.ahead = []) := by
  obtain ⟨w, rest, rest', hrest, hrest', hw, hgap, hgap', hwords, hnil⟩ :=
    Text.exists_common_word h.words h.atWord h.atWord'
  refine ⟨w, ⟨h.left, h.right, hw, rest, rest', hrest, hrest', hgap, hgap', hwords⟩,
    fun hempty => ?_⟩
  obtain ⟨rfl, rfl⟩ := hnil hempty
  rw [hrest, hrest', hempty]
  exact ⟨rfl, rfl⟩

/-- What is passed on the way is the same but for whitespace. -/
theorem exists_passed (h : SameWords u v c d) (h' : SameWords u v c' d') (hc : c.Onward c')
    (hd : d.Onward d') : ∃ passed passed', c.ahead = passed ++ c'.ahead ∧
      d.ahead = passed' ++ d'.ahead ∧ Text.solid passed = Text.solid passed' := by
  obtain ⟨passed, hpassed, -⟩ := hc.place
  obtain ⟨passed', hpassed', -⟩ := hd.place
  refine ⟨passed, passed', hpassed, hpassed', ?_⟩
  have hsolid := Text.solid_eq_of_words_eq h.words
  have hsolid' := Text.solid_eq_of_words_eq h'.words
  rw [show c.ahead = passed ++ c'.ahead from hpassed,
    show d.ahead = passed' ++ d'.ahead from hpassed', Text.solid_append, Text.solid_append,
    hsolid'] at hsolid
  exact List.append_cancel_right hsolid

/-- Where one cursor has not moved the other one has passed whitespace at most; and there is none
before it. -/
theorem offset_eq (h : SameWords u v c d) (h' : SameWords u v c' d') (hc : c.Onward c')
    (hd : d.Onward d') (hstayed : c'.offset = c.offset) : d'.offset = d.offset := by
  obtain ⟨passed, passed', hpassed, hpassed', hsolid⟩ := h.exists_passed h' hc hd
  rw [hc.eq_of_offset_eq hstayed] at hpassed
  obtain rfl : passed = [] := by simpa using hpassed
  have hempty : passed' = [] := by
    cases passed' with
    | nil => rfl
    | cons s passed' =>
        have hs : Unicode.isBlank s = false := h.atWord' s (by rw [hpassed']; rfl)
        simp [Text.solid, hs] at hsolid
  have hslice := h.right.slice?_eq hd hpassed'
  obtain ⟨before, after, -, hbefore, hafter⟩ := Text.slice?_eq_some_iff.1 hslice
  rw [← hbefore, ← hafter, hempty, List.append_nil]

end SameWords

end Cursor

/-- Errors that say the same of the input, wherever in it they are. -/
structure ParseError.SameFinding (e e' : ParseError) : Prop where
  kind : e.kind = e'.kind
  message : e.message = e'.message
  found : e.found = e'.found
  expectation : e.expectation = e'.expectation

/-- Errors that are reported where the same symbol comes next. -/
theorem ParseError.sameFinding_of_locate {p q p' q' : Place} (kind : ErrorKind) (message : String)
    (expectation : Expectation) (hp : p.IsGenuine c.input) (hq : q.IsGenuine c.input)
    (hp' : p'.IsGenuine d.input) (hq' : q'.IsGenuine d.input)
    (hhead : q.ahead.head? = q'.ahead.head?) :
    EndsAlike SameFinding
      ((locate kind message expectation p.position q.position c).mapError .fault)
      ((locate kind message expectation p'.position q'.position d).mapError .fault) := by
  obtain ⟨e, he⟩ := exists_locate hp hq kind message expectation
  obtain ⟨e', he'⟩ := exists_locate hp' hq' kind message expectation
  obtain ⟨found, excerpt, hfound, -, hfields⟩ := eq_of_locate he
  obtain ⟨found', excerpt', hfound', -, hfields'⟩ := eq_of_locate he'
  have hsame : found = found' := by
    rw [hq.symbolAt, hhead] at hfound
    rw [hq'.symbolAt] at hfound'
    exact (Except.ok.inj hfound).symm.trans (Except.ok.inj hfound')
  rw [he, he']
  refine .ok ?_
  rw [hfields, hfields']
  exact ⟨rfl, rfl, hsame, rfl⟩

/-- Cursors at the same words of two texts. -/
def Correspondence.layout (u v : List Char) : Correspondence where
  cursor := Cursor.SameWords u v
  error := ParseError.SameFinding
  expectation := Eq
  logs := False
  expectation_refl _ := rfl
  checkpoint h := ⟨h.left.checkpoint, h.right.checkpoint, h.words, h.atWord, h.atWord'⟩
  commit _ h' := ⟨⟨h'.left.input_eq, h'.left.isGenuine⟩, ⟨h'.right.input_eq, h'.right.isGenuine⟩,
    h'.words, h'.atWord, h'.atWord'⟩
  skipBlanks h := by
    obtain ⟨w, hword, -⟩ := h.exists_sameWord
    exact hword.skipBlanks
  moved h h' hc hd := ⟨h.offset_eq h' hc hd, h.symm.offset_eq h'.symm hd hc⟩
  slice h h' hc hd := by
    obtain ⟨text, htext⟩ := hc.exists_slice (h.left.input_eq ▸ h.left.isGenuine)
    obtain ⟨text', htext'⟩ := hd.exists_slice (h.right.input_eq ▸ h.right.isGenuine)
    rw [htext, htext']
    exact .ok trivial
  locate := by
    rintro c d c' d' h h' hc hd kind message expectation _ rfl
    have hgenuine : c.place.IsGenuine c'.input := h'.left.input_eq ▸ h.left.isGenuine
    have hgenuine' : d.place.IsGenuine d'.input := h'.right.input_eq ▸ h.right.isGenuine
    by_cases hkind : kind = .action
    · rw [if_pos hkind, if_pos hkind]
      exact ParseError.sameFinding_of_locate kind message expectation hgenuine hgenuine hgenuine'
        hgenuine' h.symbol?_eq
    · rw [if_neg hkind, if_neg hkind]
      exact ParseError.sameFinding_of_locate kind message expectation hgenuine
        (h'.left.input_eq ▸ h'.left.isGenuine) hgenuine' (h'.right.input_eq ▸ h'.right.isGenuine)
        h'.symbol?_eq
  cursor_eq := False.elim
  error_texts := False.elim

end ParserAlgebra
