import ParserAlgebra.Proofs.Diagnosis

/-!
# What a report shows

The second line of a report is a row of the input and the third one has carets below it. The rule
that failed may begin on an earlier row than the one reported, so which row is shown, and whether
there are two carets or one, is decided case by case; in every case the row is the one that the
error names, and a caret stands under the column that it names.
-/

namespace ParserAlgebra

namespace Text

/-- The rows of a text, without the line feeds between them. -/
def rows (cs : List Char) : List (List Char) :=
  cs.splitOn '\n'

/-- What a text has on the row of the symbol behind it. -/
def lineBehind (before : List Char) : List Char :=
  before.rtakeWhile (· ≠ '\n')

example : rows "é\nßa\n".toList = ["é".toList, "ßa".toList, []] := by decide

theorem rows_append (xs ys : List Char) : rows (xs ++ '\n' :: ys) = rows xs ++ rows ys :=
  List.splitOnP_append_cons xs ys (beq_self_eq_true '\n')

theorem rows_of_notMem {cs : List Char} (h : '\n' ∉ cs) : rows cs = [cs] :=
  List.splitOnP_eq_singleton fun _ hc => beq_eq_false_iff_ne.2 fun heq => h (heq ▸ hc)

theorem rows_cons_of_notMem {xs : List Char} (h : '\n' ∉ xs) (ys : List Char) :
    rows (xs ++ '\n' :: ys) = xs :: rows ys := by
  rw [rows_append, rows_of_notMem h, List.singleton_append]

theorem length_rows (cs : List Char) : (rows cs).length = cs.count '\n' + 1 := by
  induction cs with
  | nil => rfl
  | cons c cs ih =>
      by_cases hc : c = '\n'
      · subst hc
        rw [← List.nil_append ('\n' :: cs), rows_append, List.length_append, ih]
        simp [rows, Nat.add_comm]
      · have hrows : rows (c :: cs) = (rows cs).modifyHead (c :: ·) := by
          rw [rows, List.splitOn_eq_splitOnP, List.splitOnP_cons_eq_if_modifyHead]
          simp [hc, rows, List.splitOn_eq_splitOnP]
        rw [hrows, List.length_modifyHead, ih, List.count_cons_of_ne hc]

theorem getElem?_rows_zero (cs : List Char) : (rows cs)[0]? = some (cs.takeWhile (· ≠ '\n')) := by
  by_cases h : '\n' ∈ cs
  · obtain ⟨xs, ys, rfl, hxs⟩ := List.eq_append_cons_of_mem h
    have htake : (xs ++ '\n' :: ys).takeWhile (· ≠ '\n') = xs := by
      rw [List.takeWhile_append_of_pos fun c hc => by simpa using ne_of_mem_of_not_mem hc hxs]
      simp
    rw [rows_cons_of_notMem hxs, htake]
    rfl
  · have htake : cs.takeWhile (· ≠ '\n') = cs :=
      List.takeWhile_eq_self_iff.2 fun c hc => by simpa using ne_of_mem_of_not_mem hc h
    rw [rows_of_notMem h, htake]
    rfl

theorem lineBehind_lineFeed (before : List Char) : lineBehind (before ++ ['\n']) = [] :=
  List.rtakeWhile_concat_neg _ _ _ (by simp)

theorem lineBehind_append_singleton (before : List Char) {c : Char} (hc : c ≠ '\n') :
    lineBehind (before ++ [c]) = lineBehind before ++ [c] :=
  List.rtakeWhile_concat_pos _ _ _ (by simpa using hc)

/-- The row that a place is on consists of what is on it before the place and behind the place. -/
theorem getElem?_rows_append (before ahead : List Char) :
    (rows (before ++ ahead))[before.count '\n']? =
      some (lineBehind before ++ ahead.takeWhile (· ≠ '\n')) := by
  induction before using List.reverseRecOn generalizing ahead with
  | nil => exact getElem?_rows_zero ahead
  | append_singleton before c ih =>
      rw [List.append_assoc, List.singleton_append, List.count_append]
      by_cases hc : c = '\n'
      · subst hc
        have hlength : (rows before).length = before.count '\n' + List.count '\n' ['\n'] :=
          length_rows before
        rw [rows_append, ← hlength, List.getElem?_append_right (Nat.le_refl _), Nat.sub_self,
          getElem?_rows_zero, lineBehind_lineFeed, List.nil_append]
      · have hcount : List.count '\n' [c] = 0 := List.count_eq_zero.2 (by simp [Ne.symm hc])
        rw [hcount, Nat.add_zero, ih, lineBehind_append_singleton before hc, List.append_assoc,
          List.takeWhile_cons_of_pos (by simpa using hc), List.singleton_append]

end Text

namespace Position

/-- The start of a row is behind the last line feed before it. -/
theorem dropBytes?_lineStart (before ahead : List Char) :
    Text.dropBytes? (start.pastAll before).lineStart (before ++ ahead) =
      some (Text.lineBehind before ++ ahead) := by
  induction before using List.reverseRecOn generalizing ahead with
  | nil => exact Text.dropBytes?_zero ahead
  | append_singleton before c ih =>
      rw [pastAll_append, pastAll_cons, pastAll_nil, past]
      by_cases hc : c = '\n'
      · have hoffset : (start.pastAll before).offset + c.utf8Size =
            Text.byteLength (before ++ [c]) := by
          rw [offset_pastAll, Text.byteLength_append]
          simp [start]
        rw [if_pos hc, hoffset, Text.dropBytes?_append, hc, Text.lineBehind_lineFeed,
          List.nil_append]
      · rw [if_neg hc, List.append_assoc, Text.lineBehind_append_singleton before hc,
          List.append_assoc]
        exact ih ([c] ++ ahead)

theorem row_le_pastAll (p : Position) (cs : List Char) : p.row ≤ (p.pastAll cs).row := by
  induction cs generalizing p with
  | nil => exact Nat.le_refl _
  | cons c cs ih =>
      refine Nat.le_trans ?_ (ih (p.past c))
      unfold past
      split
      · exact Nat.le_succ _
      · exact Nat.le_refl _

/-- As long as the row stays the same, the columns go on. -/
theorem column_le_pastAll (p : Position) (cs : List Char) (h : (p.pastAll cs).row = p.row) :
    p.column ≤ (p.pastAll cs).column := by
  induction cs generalizing p with
  | nil => exact Nat.le_refl _
  | cons c cs ih =>
      have hrow := row_le_pastAll (p.past c) cs
      rw [pastAll_cons] at h ⊢
      by_cases hc : c = '\n'
      · simp only [past, if_pos hc] at hrow h
        omega
      · have hpast : p.past c = ⟨p.offset + c.utf8Size, p.row, p.column + 1, p.lineStart⟩ :=
          if_neg hc
        refine Nat.le_trans ?_ (ih (p.past c) (by rw [h, hpast]))
        rw [hpast]
        exact Nat.le_succ _

end Position

namespace Place

theorem Onward.column_le {p q : Place} (h : p.Onward q) (hrow : q.position.row = p.position.row) :
    p.position.column ≤ q.position.column := by
  obtain ⟨taken, -, hq⟩ := h
  rw [hq] at hrow ⊢
  exact Position.column_le_pastAll _ _ hrow

namespace IsGenuine

variable {p : Place}

theorem one_le_row {input : List Char} (hp : p.IsGenuine input) : 1 ≤ p.position.row := by
  obtain ⟨before, -, hposition⟩ := hp.exists_before
  rw [hposition, Position.row_pastAll, Text.rowBehind]
  exact Nat.le_add_left 1 _

/-- What is looked up as the line of a genuine place is the row of the input that the place is on,
and the place is on it or right behind it. -/
theorem exists_row {c : Cursor} (hp : p.IsGenuine c.input) :
    ∃ line, (Text.rows c.input)[p.position.row - 1]? = some line ∧ c.line p.position = .ok line ∧
      '\n' ∉ line ∧ p.position.column ≤ line.length + 1 := by
  obtain ⟨before, hinput, hposition⟩ := hp.exists_before
  have hline : '\n' ∉ Text.lineBehind before := fun h => by
    simpa using List.mem_rtakeWhile_imp h
  have hahead : '\n' ∉ p.ahead.takeWhile (· ≠ '\n') := fun h => by
    simpa using List.mem_takeWhile_imp h
  refine ⟨Text.lineBehind before ++ p.ahead.takeWhile (· ≠ '\n'), ?_, ?_, ?_, ?_⟩
  · rw [hinput, hposition, Position.row_pastAll]
    exact Text.getElem?_rows_append before p.ahead
  · rw [Cursor.line, hinput, hposition, Position.dropBytes?_lineStart]
    refine congrArg Except.ok (List.takeWhile_append_of_pos fun c hc => ?_)
    simpa using ne_of_mem_of_not_mem hc hline
  · exact fun h => (List.mem_append.1 h).elim hline hahead
  · rw [hposition, Position.column_pastAll, List.length_append]
    exact Nat.add_le_add_right (Nat.le_add_right _ _) 1

/-- A place that is on a row of the input is on one of its symbols or right behind it. -/
theorem column_le_of_row {input : List Char} (hp : p.IsGenuine input) {line : List Char}
    (hline : (Text.rows input)[p.position.row - 1]? = some line) :
    p.position.column ≤ line.length + 1 := by
  obtain ⟨other, hother, -, -, hcolumn⟩ := hp.exists_row (c := .ofInput input)
  obtain rfl : line = other := Option.some.inj (hline.symm.trans hother)
  exact hcolumn

end IsGenuine

end Place

/-- Carets below a line: one behind some spaces and, if there are dashes, another one behind
these. -/
structure Carets where
  spaces : Nat
  dashes : Option Nat
  deriving DecidableEq

namespace Carets

def text (m : Carets) : List Char :=
  List.replicate m.spaces ' ' ++ '^' ::
    match m.dashes with
    | none => []
    | some n => List.replicate n '-' ++ ['^']

/-- The column under which the first caret stands. -/
def firstColumn (m : Carets) : Nat :=
  m.spaces + 1

/-- The column under which the last caret stands. -/
def lastColumn (m : Carets) : Nat :=
  m.text.length

theorem notMem_text (m : Carets) : '\n' ∉ m.text := by
  obtain ⟨spaces, dashes⟩ := m
  cases dashes <;> simp [text, List.mem_replicate]

/-- The carets for a rule that is shown from `anchor` on and ended at `stop`. -/
def between (anchor stop : Position) : Carets where
  spaces := anchor.column - 1
  dashes :=
    if stop.row = anchor.row ∧ anchor.column < stop.column then
      some (stop.column - anchor.column - 1)
    else
      none

variable {anchor stop : Position}

theorem text_between : (between anchor stop).text = marker anchor stop := by
  unfold text between marker
  by_cases h : stop.row = anchor.row ∧ anchor.column < stop.column
  · simp only [if_pos h]
  · simp only [if_neg h]

theorem isSome_dashes_between :
    (between anchor stop).dashes.isSome ↔
      stop.row = anchor.row ∧ anchor.column < stop.column := by
  unfold between
  split <;> simp_all

theorem firstColumn_between (h : 1 ≤ anchor.column) :
    (between anchor stop).firstColumn = anchor.column :=
  Nat.sub_add_cancel h

theorem lastColumn_between (stop : Position) (h : 1 ≤ anchor.column) :
    (between anchor stop).lastColumn =
      if stop.row = anchor.row ∧ anchor.column < stop.column then stop.column
      else anchor.column := by
  rw [lastColumn, text_between, marker]
  split
  · simp only [List.length_append, List.length_replicate, List.length_cons, List.length_nil]
    omega
  · simp only [List.length_append, List.length_replicate, List.length_cons, List.length_nil]
    omega

end Carets

theorem Cursor.eq_of_excerpt {c : Cursor} {start reported : Position} {text : String}
    (h : c.excerpt start reported = .ok text) :
    ∃ line, c.line (if reported.row = start.row then start else reported) = .ok line ∧
      text = String.ofList (shownLine line ++ '\n' ::
        marker (if reported.row = start.row then start else reported) c.position) := by
  unfold excerpt at h
  generalize (if reported.row = start.row then start else reported) = anchor at h ⊢
  cases hline : c.line anchor with
  | error f => simp [hline, bind, Except.bind] at h
  | ok line =>
      by_cases hcolumn : anchor.column = 0
      · simp [hline, hcolumn, bind, Except.bind, throw, throwThe, MonadExceptOf.throw] at h
      · simp only [hline, hcolumn, bind, Except.bind, pure, Except.pure, if_false,
          Except.ok.injEq] at h
        exact ⟨line, rfl, h.symm⟩

theorem notMem_shownLine {line : List Char} (h : '\n' ∉ line) : '\n' ∉ shownLine line := by
  intro hmem
  obtain ⟨c, hc, heq⟩ := List.mem_map.1 hmem
  split at heq
  · cases heq
  · exact h (heq ▸ hc)

theorem notMem_toDigits (n : Nat) : '\n' ∉ Nat.toDigits 10 n := by
  intro h
  have hdigit : Char.isDigit '\n' = true :=
    Nat.isDigit_of_mem_toDigits (by decide) (by decide) h
  cases hdigit

namespace ParseError

/-- An error whose report shows a row of an input with carets under it that point at the place
reported; an error of an action points at where the rule began and, on the same row, at where it
ended. -/
structure Pictures (input : List Char) (e : ParseError) (line : List Char) (m : Carets) :
    Prop where
  one_le_row : 1 ≤ e.row
  row_eq : (Text.rows input)[e.row - 1]? = some line
  second : (Text.rows e.report.toList)[1]? = some (shownLine line)
  third : (Text.rows e.report.toList)[2]? = some m.text
  length_le : m.text.length ≤ (shownLine line).length + 1
  last_eq : e.kind ≠ .action → m.lastColumn = e.column
  first_eq : e.kind = .action → m.firstColumn = e.column
  stop_eq : e.kind = .action → ∃ before ahead, input = before ++ ahead ∧
    Text.byteLength before = e.span.stop ∧
      (m.dashes.isSome ↔ Text.rowBehind before = e.row ∧ e.column < Text.columnBehind before) ∧
        (m.dashes.isSome → m.lastColumn = Text.columnBehind before)

/-- The first lines of a report are the headline, which has the message in it, and the excerpt. -/
theorem exists_rows_report {e : ParseError} (hmessage : '\n' ∉ e.message.toList)
    {line : List Char} (hline : '\n' ∉ line) {m : Carets}
    (hexcerpt : e.excerpt = String.ofList (shownLine line ++ '\n' :: m.text)) :
    ∃ first rest, Text.rows e.report.toList = first :: shownLine line :: m.text :: rest := by
  have hreport : e.report.toList =
      (e.message.toList ++ " at line: ".toList ++ (toString e.row).toList ++ " column: ".toList ++
        (toString e.column).toList) ++ '\n' :: (shownLine line ++ '\n' :: (m.text ++ '\n' ::
          ("expecting: ".toList ++ e.expectation.text.toList ++ "\n".toList ++
            (listing e.expectation.definitions).toList))) := by
    simp [report, hexcerpt]
  have hfirst : '\n' ∉ e.message.toList ++ " at line: ".toList ++ (toString e.row).toList ++
      " column: ".toList ++ (toString e.column).toList := by
    simp [hmessage, notMem_toDigits]
  rw [hreport, Text.rows_cons_of_notMem hfirst, Text.rows_cons_of_notMem (notMem_shownLine hline),
    Text.rows_cons_of_notMem m.notMem_text]
  exact ⟨_, _, rfl⟩

/-- What an error is shown with: the row of the place where the rule began, if that is the row
reported, and else the row of the place reported, where the cursor is. -/
theorem RaisedFrom.exists_anchor {input : List Char} {first : Place} {e : ParseError}
    (h : e.RaisedFrom input first) (hfirst : first.IsGenuine input) :
    ∃ (anchor start : Place) (c : Cursor) (line : List Char),
      c.input = input ∧ anchor.IsGenuine c.input ∧ c.place.IsGenuine c.input ∧
        c.line anchor.position = .ok line ∧
        e.excerpt = String.ofList (shownLine line ++ '\n' ::
          (Carets.between anchor.position c.position).text) ∧
        e.row = anchor.position.row ∧ e.span = c.spanFrom start.position ∧
        (e.kind = .action → anchor = start ∧ e.column = start.position.column) ∧
        (e.kind ≠ .action → anchor.Onward c.place ∧ c.position.row = anchor.position.row ∧
          e.column = c.position.column) := by
  obtain ⟨start, c, rfl, hstart, honward, he⟩ := h
  have hbegan : start.IsGenuine c.input := hfirst.onward hstart
  have hstop : c.place.IsGenuine c.input := hbegan.onward honward
  obtain ⟨found, excerpt, -, hexcerpt, hfields⟩ := eq_of_locate he
  obtain ⟨line, hline, htext⟩ := Cursor.eq_of_excerpt hexcerpt
  rw [← Carets.text_between] at htext
  have heexcerpt : e.excerpt = excerpt := by rw [hfields]
  have hspan : e.span = c.spanFrom start.position := by rw [hfields]
  have hrow : e.row = (if e.kind = .action then start.position else c.position).row := by
    rw [hfields]
  have hcolumn : e.column = (if e.kind = .action then start.position else c.position).column := by
    rw [hfields]
  rw [← heexcerpt] at htext
  by_cases haction : e.kind = .action
  · simp only [if_pos haction, if_true] at hline htext hrow hcolumn
    exact ⟨start, start, c, line, rfl, hbegan, hstop, hline, htext, hrow, hspan,
      fun _ => ⟨rfl, hcolumn⟩, fun hne => absurd haction hne⟩
  · simp only [if_neg haction] at hline htext hrow hcolumn
    by_cases hsame : c.position.row = start.position.row
    · rw [if_pos hsame] at hline htext
      exact ⟨start, start, c, line, rfl, hbegan, hstop, hline, htext, hrow.trans hsame, hspan,
        fun h => absurd h haction, fun _ => ⟨honward, hsame, hcolumn⟩⟩
    · rw [if_neg hsame] at hline htext
      exact ⟨c.place, start, c, line, rfl, hstop, hstop, hline, htext, hrow, hspan,
        fun h => absurd h haction, fun _ => ⟨.refl _, rfl, hcolumn⟩⟩

/-- Whatever the kind of an error, its report shows the row reported and points at the place. -/
theorem RaisedFrom.exists_pictures {input : List Char} {first : Place} {e : ParseError}
    (h : e.RaisedFrom input first) (hfirst : first.IsGenuine input)
    (hmessage : '\n' ∉ e.message.toList) : ∃ line m, e.Pictures input line m := by
  obtain ⟨anchor, start, c, shown, rfl, hanchor, hstop, hlooked, hexcerpt, hrow, hspan, haction,
    hother⟩ := h.exists_anchor hfirst
  obtain ⟨line, hline, hlookup, hfeed, hbound⟩ := hanchor.exists_row
  obtain rfl : shown = line := Except.ok.inj (hlooked.symm.trans hlookup)
  have hone : 1 ≤ anchor.position.column := hanchor.exists_line.2
  have hlast := Carets.lastColumn_between c.position hone
  obtain ⟨headline, rest, hrows⟩ := exists_rows_report hmessage hfeed hexcerpt
  refine ⟨shown, .between anchor.position c.position, ?_, ?_, ?_, ?_, ?_, ?_, ?_, ?_⟩
  · rw [hrow]
    exact hanchor.one_le_row
  · rw [hrow]
    exact hline
  · rw [hrows]
    rfl
  · rw [hrows]
    rfl
  · change Carets.lastColumn _ ≤ _
    rw [hlast, shownLine, List.length_map]
    split
    · obtain ⟨hsame, -⟩ := ‹_ ∧ _›
      exact hstop.column_le_of_row (hsame.symm ▸ hline)
    · exact hbound
  · intro hkind
    obtain ⟨honward, hsame, hcolumn⟩ := hother hkind
    have hle : anchor.position.column ≤ c.position.column := honward.column_le hsame
    rw [hlast, hcolumn]
    split
    · rfl
    · omega
  · intro hkind
    obtain ⟨rfl, hcolumn⟩ := haction hkind
    rw [Carets.firstColumn_between hone, hcolumn]
  · intro hkind
    obtain ⟨rfl, hcolumn⟩ := haction hkind
    obtain ⟨before, hinput, hposition⟩ := hstop.exists_before
    have hstopRow : c.position.row = Text.rowBehind before := by
      rw [← Position.row_pastAll]
      exact congrArg Position.row hposition
    have hstopColumn : c.position.column = Text.columnBehind before := by
      rw [← Position.column_pastAll]
      exact congrArg Position.column hposition
    refine ⟨before, _, hinput, ?_, ?_, ?_⟩
    · rw [hspan]
      change _ = c.place.position.offset
      rw [hposition, Position.offset_pastAll]
      exact (Nat.zero_add _).symm
    · rw [Carets.isSome_dashes_between, hstopRow, hstopColumn, hrow, hcolumn]
    · intro hsome
      rw [hlast, if_pos (Carets.isSome_dashes_between.1 hsome), hstopColumn]

end ParseError

variable {σ : Type}

namespace Environment

/-- Every report shows the row of the input that its error names, with carets that point at the
place reported: those of runs from a genuine place, and those of parsing an input. -/
theorem report_pictures (env : Environment σ) (g : Grammar σ) :
    (∀ c o e, c.cursor.place.IsGenuine c.cursor.input → env.Yields g c o →
      o.verdict = .failed e → '\n' ∉ e.message.toList →
        ∃ line m, e.Pictures c.cursor.input line m) ∧
    (∀ limit kind input state o e, env.parse limit kind g input state = .ok o →
      o.verdict = .failed e → '\n' ∉ e.message.toList → ∃ line m, e.Pictures input line m) ∧
    ∀ limit kind input state o e, env.parseComplete limit kind g input state = .ok o →
      o.verdict = .failed e → '\n' ∉ e.message.toList → ∃ line m, e.Pictures input line m := by
  have hbeginning (input : List Char) : (Cursor.ofInput input).place.IsGenuine input :=
    (Cursor.wellFormed_ofInput input).place
  refine ⟨?_, ?_, ?_⟩
  · intro c o e hc ho he hmessage
    exact (ho.errorFrom e he).exists_pictures hc hmessage
  · intro limit kind input state o e ho he hmessage
    have herror : o.ErrorFrom (.ofInput input) :=
      (env.reports_run limit g (startOf kind input state)).of_eq_ok ho
    exact (herror e he).exists_pictures (hbeginning input) hmessage
  · intro limit kind input state o e ho he hmessage
    have herror := (env.reports_parseComplete limit kind g input state).of_eq_ok ho
    exact (herror e he).exists_pictures (hbeginning input) hmessage

/-- A rule that begins on the first row and fails on the second one: the second row is shown, its
tab as a space, with one caret. -/
theorem report_pictures_laterRow :
    let env : Environment Nat := ⟨.empty, .off⟩
    let g : Grammar Nat := .strict "no list" (.sequence (.literal "[\n\té") (.literal "]"))
    let input := ['[', '\n', '\t', 'é', ';', '\n']
    let c : Config Nat := ⟨.ofInput input, none, 0⟩
    c.cursor.place.IsGenuine input ∧
      ∃ o e, env.Yields g c o ∧ o.verdict = .failed e ∧ '\n' ∉ e.message.toList ∧ e.row = 2 ∧
        e.column = 3 ∧ e.excerpt = " é;\n  ^" ∧ ∃ line m, e.Pictures input line m := by
  intro env g input c
  have hc : c.cursor.place.IsGenuine input := ⟨rfl, rfl⟩
  obtain ⟨hrun, -⟩ := report_pictures env g
  have hyields : env.Yields g c _ := ⟨9, rfl⟩
  have hmessage : '\n' ∉ "no list".toList := by decide
  exact ⟨hc, _, _, hyields, rfl, hmessage, rfl, rfl, rfl, hrun c _ _ hc hyields rfl hmessage⟩

end Environment

end ParserAlgebra
