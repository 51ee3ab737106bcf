import ParserAlgebra.Proofs.Lockstep

/-!
# Runs do not depend on what precedes the cursor

A text that stands in a longer one begins somewhere in it. Its places are then further on by the
bytes before, and further down by the rows before; only on the row on which the text begins are they
further right. A run that begins with the text ends there as it ends on the text alone, unless it
meets a regular expression, which looks at the symbol before.
-/

namespace ParserAlgebra

variable {σ : Type}

namespace Position

/-- A location of a text, as it is in a longer text in which the text begins at `origin`. -/
def within (p origin : Position) : Position where
  offset := origin.offset + p.offset
  row := origin.row - 1 + p.row
  column := if p.row = 1 then origin.column - 1 + p.column else p.column
  lineStart := if p.row = 1 then origin.lineStart + p.lineStart else origin.offset + p.lineStart

variable {p origin : Position}

theorem row_past_pos (h : 0 < p.row) (c : Char) : 0 < (p.past c).row := by
  unfold past
  split
  · exact Nat.succ_pos _
  · exact h

theorem row_pastAll_pos (h : 0 < p.row) (cs : List Char) : 0 < (p.pastAll cs).row := by
  induction cs generalizing p with
  | nil => exact h
  | cons c cs ih => exact ih (row_past_pos h c)

/-- Rows begin anew behind a line feed, and so do columns. -/
theorem past_within (h : 0 < p.row) (c : Char) :
    (p.within origin).past c = (p.past c).within origin := by
  unfold past
  by_cases hc : c = '\n'
  · simp [hc, within, h.ne', Nat.add_assoc]
  · by_cases hrow : p.row = 1
    · simp [hc, within, hrow, Nat.add_assoc]
    · simp [hc, within, hrow, Nat.add_assoc]

theorem pastAll_within (h : 0 < p.row) (cs : List Char) :
    (p.within origin).pastAll cs = (p.pastAll cs).within origin := by
  induction cs generalizing p with
  | nil => rfl
  | cons c cs ih => rw [pastAll_cons, past_within h, ih (row_past_pos h c), pastAll_cons]

theorem start_within (hrow : 0 < origin.row) (hcolumn : 0 < origin.column) :
    start.within origin = origin := by
  obtain ⟨offset, row, column, lineStart⟩ := origin
  simp only [within, start, if_true, mk.injEq]
  exact ⟨rfl, Nat.sub_add_cancel hrow, Nat.sub_add_cancel hcolumn, rfl⟩

/-- In a text behind another one, the location behind its first symbols is what it is in the text
alone, seen from where the text begins. -/
theorem pastAll_append_eq_within (u passed : List Char) :
    start.pastAll (u ++ passed) = (start.pastAll passed).within (start.pastAll u) := by
  have hrow : 0 < (start.pastAll u).row := row_pastAll_pos Nat.one_pos u
  have hcolumn : 0 < (start.pastAll u).column := (exists_lineStart_pastAll u).2
  rw [pastAll_append, ← pastAll_within Nat.one_pos, start_within hrow hcolumn]

end Position

namespace Place

/-- A place of a text, as it is in a longer text in which the text begins at `origin`. -/
def within (p : Place) (origin : Position) : Place :=
  ⟨p.position.within origin, p.ahead⟩

variable {origin : Position}

theorem next_within {p : Place} (h : 0 < p.position.row) :
    (p.within origin).next = p.next.within origin := by
  obtain ⟨position, ahead⟩ := p
  cases ahead with
  | nil => rfl
  | cons c cs => exact congrArg (Place.mk · cs) (Position.past_within h c)

theorem reach_within {position : Position} (h : 0 < position.row) (target : Nat)
    (cs : List Char) :
    reach (origin.offset + target) (position.within origin) cs =
      (reach target position cs).within origin := by
  induction cs generalizing position with
  | nil => rfl
  | cons c cs ih =>
      have hlt : (position.within origin).offset < origin.offset + target ↔
          position.offset < target := Nat.add_lt_add_iff_left
      rw [reach_cons, reach_cons]
      by_cases hpast : position.offset < target
      · rw [if_pos hpast, if_pos (hlt.2 hpast), Position.past_within h,
          ih (Position.row_past_pos h c)]
      · rw [if_neg hpast, if_neg fun h => hpast (hlt.1 h)]
        rfl

theorem skipWhile_within {position : Position} (h : 0 < position.row) (test : Char → Bool)
    (cs : List Char) :
    skipWhile test (position.within origin) cs =
      (skipWhile test position cs).within origin := by
  induction cs generalizing position with
  | nil => rfl
  | cons c cs ih =>
      rw [skipWhile_cons, skipWhile_cons, Position.past_within h, ih (Position.row_past_pos h c)]
      split <;> rfl

end Place

/-- A grammar that is no regular expression, and neither is anything that it involves. -/
def Store.Patternless (store : Store σ) : Grammar σ → Prop :=
  store.Throughout fun q => ∀ source matcher, q ≠ .pattern source matcher

/-- A cursor in a text behind `u`, and one at the same place of the text alone. -/
structure Cursor.Relocated (u v : List Char) (c d : Cursor) : Prop where
  input : c.input = u ++ v
  liesIn : d.LiesIn v
  place : c.place = d.place.within (Position.start.pastAll u)

namespace Cursor.Relocated

variable {u v : List Char} {c d c' d' : Cursor}

theorem row_pos (h : Relocated u v c d) : 0 < d.position.row := by
  obtain ⟨passed, -, hposition⟩ := h.liesIn.isGenuine.exists_before
  change 0 < d.place.position.row
  rw [hposition]
  exact Position.row_pastAll_pos Nat.one_pos passed

theorem offset (h : Relocated u v c d) : c.offset = (Position.start.pastAll u).offset + d.offset :=
  congrArg (fun p => p.position.offset) h.place

/-- The cursor in the longer text is at a genuine place, too. -/
theorem liesIn_append (h : Relocated u v c d) : c.LiesIn (u ++ v) := by
  refine ⟨h.input, Place.isGenuine_iff.2 ?_⟩
  obtain ⟨passed, hinput, hposition⟩ := h.liesIn.isGenuine.exists_before
  refine ⟨u ++ passed, ?_, ?_⟩
  · rw [h.place, List.append_assoc]
    exact congrArg (u ++ ·) hinput
  · rw [h.place, Position.pastAll_append_eq_within, ← hposition]
    rfl

theorem move (h : Relocated u v c d) (hc : c.Onward c') (hd : d.Onward d')
    (hplace : c'.place = d'.place.within (Position.start.pastAll u)) : Relocated u v c' d' :=
  ⟨hc.input.trans h.input, h.liesIn.onward hd, hplace⟩

theorem advance (h : Relocated u v c d) : Relocated u v c.advance d.advance := by
  refine h.move c.onward_advance d.onward_advance ?_
  change c.place.next = d.place.next.within _
  rw [h.place, Place.next_within h.row_pos]

theorem advanceTo (h : Relocated u v c d) (bytes : Nat) :
    Relocated u v (c.advanceTo (c.offset + bytes)) (d.advanceTo (d.offset + bytes)) := by
  refine h.move (c.onward_advanceTo _) (d.onward_advanceTo _) ?_
  change Place.reach _ c.place.position c.place.ahead = Place.within (.reach _ _ _) _
  rw [h.offset, Nat.add_assoc, h.place]
  exact Place.reach_within h.row_pos _ _

theorem skipWhile (h : Relocated u v c d) (test : Char → Bool) :
    Relocated u v (c.skipWhile test) (d.skipWhile test) := by
  refine h.move (c.onward_skipWhile test) (d.onward_skipWhile test) ?_
  change Place.skipWhile test c.place.position c.place.ahead = Place.within (.skipWhile _ _ _) _
  rw [h.place]
  exact Place.skipWhile_within h.row_pos test _

end Cursor.Relocated

/-- An error in a text, and the same error in a longer text in which the text begins at `origin`. -/
structure ParseError.Relocated (origin : Position) (e e' : ParseError) : Prop where
  kind : e.kind = e'.kind
  message : e.message = e'.message
  found : e.found = e'.found
  expectation : e.expectation = e'.expectation
  span : e.span = ⟨origin.offset + e'.span.start, origin.offset + e'.span.stop⟩
  row : e.row = origin.row - 1 + e'.row
  column : e.column = if e'.row = 1 then origin.column - 1 + e'.column else e'.column

theorem Place.IsGenuine.symbolAt {p : Place} {c : Cursor} (h : p.IsGenuine c.input) :
    c.symbolAt p.position.offset = .ok p.ahead.head? := by
  unfold Cursor.symbolAt
  rw [h.1]

/-- Errors that are made at corresponding cursors. -/
theorem ParseError.relocated_of_locate {u v : List Char} {c d c' d' : Cursor} {q : Place}
    (kind : ErrorKind) (message : String) (expectation : Expectation)
    (h : Cursor.Relocated u v c d) (h' : Cursor.Relocated u v c' d') (hq : q.IsGenuine v)
    (hq' : (q.within (Position.start.pastAll u)).IsGenuine (u ++ v)) :
    EndsAlike (ParseError.Relocated (Position.start.pastAll u))
      ((locate kind message expectation c.position
        (q.within (Position.start.pastAll u)).position c').mapError .fault)
      ((locate kind message expectation d.position q.position d').mapError .fault) := by
  rw [← h'.input] at hq'
  rw [← h'.liesIn.input_eq] at hq
  have hc : c.place.IsGenuine c'.input := h'.input ▸ h.liesIn_append.isGenuine
  have hd : d.place.IsGenuine d'.input := h'.liesIn.input_eq ▸ h.liesIn.isGenuine
  obtain ⟨e, he⟩ := exists_locate hc hq' kind message expectation
  obtain ⟨e', he'⟩ := exists_locate hd hq kind message expectation
  obtain ⟨found, excerpt, hfound, -, hfields⟩ := eq_of_locate he
  obtain ⟨found', excerpt', hfound', -, hfields'⟩ := eq_of_locate he'
  have hsame : found = found' := by
    rw [hq'.symbolAt] at hfound
    rw [hq.symbolAt] at hfound'
    exact (Except.ok.inj hfound).symm.trans (Except.ok.inj hfound')
  change EndsAlike _ (Except.mapError _ (locate _ _ _ c.place.position _ _))
    (Except.mapError _ (locate _ _ _ d.place.position _ _))
  rw [he, he']
  refine .ok ?_
  rw [hfields, hfields']
  exact ⟨rfl, rfl, hsame, rfl, congrArg₂ Span.mk h.offset h'.offset, rfl, rfl⟩

/-- The end of a run on a text, and the end of one behind which the same text begins at `origin`. -/
structure Outcome.Relocated (origin : Position) (o p : Outcome σ) : Prop where
  verdict : o.verdict.Alike (ParseError.Relocated origin) p.verdict
  offset : o.config.cursor.offset = origin.offset + p.config.cursor.offset
  slot : o.config.slot = p.config.slot
  state : o.config.state = p.config.state

/-- Cursors behind a text `u`, and the same ones where `v` stands alone. -/
def Correspondence.relocation (u v : List Char) : Correspondence where
  cursor := Cursor.Relocated u v
  error := ParseError.Relocated (Position.start.pastAll u)
  expectation := Eq
  logs := False
  expectation_refl _ := rfl
  checkpoint h := ⟨h.input, h.liesIn.checkpoint, h.place⟩
  commit _ h' := ⟨h'.input, ⟨h'.liesIn.input_eq, h'.liesIn.isGenuine⟩, h'.place⟩
  skipBlanks h := h.skipWhile _
  moved h h' _ _ := by
    have hoffset := h.offset
    have hoffset' := h'.offset
    omega
  slice h h' hc hd := by
    obtain ⟨text, htext⟩ := hc.exists_slice (h.input ▸ h.liesIn_append.isGenuine)
    obtain ⟨text', htext'⟩ := hd.exists_slice (h.liesIn.input_eq ▸ h.liesIn.isGenuine)
    rw [htext, htext']
    exact .ok trivial
  locate := by
    rintro c d c' d' h h' hc hd kind message expectation _ rfl
    by_cases hkind : kind = .action
    · rw [if_pos hkind, if_pos hkind]
      have hlocate := ParseError.relocated_of_locate kind message expectation h h'
        h.liesIn.isGenuine (h.place ▸ h.liesIn_append.isGenuine)
      rw [← h.place] at hlocate
      exact hlocate
    · rw [if_neg hkind, if_neg hkind]
      have hlocate := ParseError.relocated_of_locate kind message expectation h h'
        h'.liesIn.isGenuine (h'.place ▸ h'.liesIn_append.isGenuine)
      rw [← h'.place] at hlocate
      exact hlocate
  cursor_eq := False.elim
  error_texts := False.elim

namespace Environment

open Correspondence

variable {env : Environment σ} {g : Grammar σ} {u v : List Char}

theorem faithful_relocation (u v : List Char) : (relocation u v).Faithful where
  ahead h := by
    rw [Cursor.ahead, h.place]
    rfl
  advance h := h.advance
  advanceTo h text := h.advanceTo _

/-- A run behind a text, and a run of the same grammar on the text alone. -/
theorem inStep_relocation (hg : env.store.Patternless g) (n : Nat) :
    (relocation u v).InStep Eq (env.run n g) (env.run n g) := by
  refine inStep_run_of_components (fun g hg => ?_) n hg
  by_cases hreads : g.Reads
  · refine .inl (inStep_of_reads (faithful_relocation u v) .eq hreads ?_)
    exact fun source matcher hpattern => absurd hpattern (hg.self source matcher)
  · exact .inr ⟨hreads, fun q hq => hg.component hq⟩

/-- Past a text `u`, a grammar without regular expressions does with a text `v` what it does with it
alone: it ends with the same verdict behind as many bytes, with the same slot and state. Errors are
the same but for where they are. -/
theorem run_relocated (hg : env.store.Patternless g) (n : Nat) (u v : List Char)
    (slot : Option Value) (state : σ) :
    let cursor := (Cursor.ofInput (u ++ v)).advanceTo (Text.byteLength u)
    cursor.offset = Text.byteLength u ∧
      EndsAlike (Outcome.Relocated cursor.position) (env.run n g ⟨cursor, slot, state⟩)
        (env.run n g ⟨.ofInput v, slot, state⟩) := by
  intro cursor
  have hplace : cursor.place = ⟨Position.start.pastAll u, v⟩ := by
    have hreach := Place.reach_append .start u v
    rwa [show Position.start.offset = 0 from rfl, Nat.zero_add] at hreach
  have hposition : cursor.position = Position.start.pastAll u := congrArg Place.position hplace
  have hbegan : Cursor.Relocated u v cursor (.ofInput v) := by
    refine ⟨rfl, ⟨rfl, (Cursor.wellFormed_ofInput v).place⟩, hplace.trans ?_⟩
    have horigin := Position.pastAll_append_eq_within u []
    rw [List.append_nil] at horigin
    exact congrArg (Place.mk · v) horigin
  constructor
  · change cursor.position.offset = _
    rw [hposition, Position.offset_pastAll]
    exact Nat.zero_add _
  · rw [hposition]
    have hconfigs : (relocation u v).Configs Eq (⟨cursor, slot, state⟩ : Config σ)
        ⟨.ofInput v, slot, state⟩ := ⟨hbegan, rfl, rfl⟩
    refine (inStep_relocation hg n _ _ hconfigs).imp fun o p _ _ h => ?_
    exact ⟨h.verdict, h.config.cursor.offset, h.config.slot, h.config.state⟩

/-- The error is on the first row of the text, which is the second one of the input. -/
theorem run_relocated_firstRow :
    let rule : Grammar Nat :=
      .sequence (.token (.literal "x"))
        (.choice (.attempt (.handle ⟨0, 0⟩)) (.expect (.symbol ';')))
    let g : Grammar Nat := .handle ⟨0, 0⟩
    let env : Environment Nat := ⟨⟨⟨[some [some (.rule rule)]]⟩, []⟩, .off⟩
    let u := ['é', '\n', 'a', 'b']
    let v := ['x', '!']
    let cursor := (Cursor.ofInput (u ++ v)).advanceTo (Text.byteLength u)
    env.store.Patternless g ∧
      ∃ o p e e', env.run 10 g ⟨.ofInput v, some (.text ""), 0⟩ = .ok p ∧ p.verdict = .failed e' ∧
        e'.row = 1 ∧ e'.column = 2 ∧ e'.span = ⟨1, 1⟩ ∧
          env.run 10 g ⟨cursor, some (.text ""), 0⟩ = .ok o ∧ o.verdict = .failed e ∧
            e.row = 2 ∧ e.column = 4 ∧ e.span = ⟨6, 6⟩ ∧ e.found = some '!' := by
  intro rule g env u v cursor
  have hslot : env.store.handle? ⟨0, 0⟩ = some rule := rfl
  have hg : env.store.Patternless g := by
    refine Store.Throughout.of_closed [g, rule, .token (.literal "x"), .literal "x",
      .choice (.attempt g) (.expect (.symbol ';')), .attempt g, .expect (.symbol ';')]
      List.mem_cons_self ?_ ?_
    · simp [Store.components, Grammar.writtenParts, hslot, rule, g]
    · simp [rule, g]
  obtain ⟨p, e', hp, hverdict, hrow, hcolumn, hspan, hfound⟩ :
      ∃ p e', env.run 10 g ⟨.ofInput v, some (.text ""), 0⟩ = .ok p ∧ p.verdict = .failed e' ∧
        e'.row = 1 ∧ e'.column = 2 ∧ e'.span = ⟨1, 1⟩ ∧ e'.found = some '!' :=
    ⟨_, _, rfl, rfl, rfl, rfl, rfl, rfl⟩
  obtain ⟨o, ho, hop⟩ := (run_relocated hg 10 u v (some (.text "")) 0).2.exists_of_right hp
  have halike := hop.verdict
  rw [hverdict] at halike
  obtain ⟨e, hverdict', he⟩ := halike.exists_of_failed
  have hrow' := he.row
  have hcolumn' := he.column
  have hspan' := he.span
  rw [hrow] at hrow' hcolumn'
  rw [hcolumn] at hcolumn'
  rw [hspan] at hspan'
  exact ⟨hg, o, p, e, e', hp, hverdict, hrow, hcolumn, hspan, ho, hverdict', hrow', hcolumn',
    hspan', he.found.trans hfound⟩

end Environment

end ParserAlgebra
