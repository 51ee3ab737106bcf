import Mathlib.Data.List.Induction
import ParserAlgebra.Diagnostic

/-!
# Places of an input

Moving symbol by symbol leads from a place onward to another one: part of the text ahead is passed,
and the position is the one behind that part. A place is genuine if its offset is a symbol boundary
of the input and its position is the one that advancing from the beginning to that offset gives;
these are exactly the places onward from the beginning. At genuine places every look at the input
that a diagnostic takes is defined.
-/

namespace ParserAlgebra

namespace Text

theorem exists_append_of_dropBytes? {n : Nat} {cs rest : List Char}
    (h : dropBytes? n cs = some rest) : ∃ taken, cs = taken ++ rest ∧ byteLength taken = n := by
  induction cs generalizing n with
  | nil =>
      by_cases hn : n = 0
      · exact ⟨[], by simp_all [dropBytes?]⟩
      · simp [dropBytes?, hn] at h
  | cons c cs ih =>
      by_cases hn : n = 0
      · exact ⟨[], by simp_all [dropBytes?]⟩
      · by_cases hc : c.utf8Size ≤ n
        · obtain ⟨taken, rfl, hlen⟩ := ih (by simpa [dropBytes?, hn, hc] using h)
          exact ⟨c :: taken, rfl, by rw [byteLength_cons, hlen]; omega⟩
        · simp [dropBytes?, hn, hc] at h

theorem exists_append_of_takeBytes? {n : Nat} {cs text : List Char}
    (h : takeBytes? n cs = some text) : ∃ after, cs = text ++ after ∧ byteLength text = n := by
  induction cs generalizing n text with
  | nil =>
      unfold takeBytes? at h
      split at h
      · obtain rfl := Option.some.inj h
        exact ⟨[], rfl, Eq.symm ‹_›⟩
      · cases h
  | cons c cs ih =>
      unfold takeBytes? at h
      split at h
      · obtain rfl := Option.some.inj h
        exact ⟨c :: cs, rfl, Eq.symm ‹_›⟩
      · split at h
        · obtain ⟨front, hfront, rfl⟩ := Option.map_eq_some_iff.1 h
          obtain ⟨after, hcs, hlength⟩ := ih hfront
          refine ⟨after, congrArg (c :: ·) hcs, ?_⟩
          rw [byteLength_cons, hlength]
          exact Nat.add_sub_cancel' ‹_›
        · cases h

theorem slice?_eq_some_iff {i j : Nat} {cs text : List Char} :
    slice? i j cs = some text ↔ ∃ before after, cs = before ++ (text ++ after) ∧
      byteLength before = i ∧ byteLength (before ++ text) = j := by
  constructor
  · intro h
    unfold slice? at h
    split at h
    · obtain ⟨rest, hdrop, htake⟩ := Option.bind_eq_some_iff.1 h
      obtain ⟨before, hcs, hbefore⟩ := exists_append_of_dropBytes? hdrop
      obtain ⟨after, hrest, htext⟩ := exists_append_of_takeBytes? htake
      refine ⟨before, after, hrest ▸ hcs, hbefore, ?_⟩
      rw [byteLength_append, hbefore, htext]
      exact Nat.add_sub_cancel' ‹_›
    · cases h
  · rintro ⟨before, after, rfl, rfl, rfl⟩
    simp [slice?, dropBytes?_append, takeBytes?_append]

theorem exists_dropBytes?_of_slice? {i j : Nat} {cs text : List Char}
    (h : slice? i j cs = some text) : ∃ after, dropBytes? j cs = some after := by
  obtain ⟨before, after, hcs, -, rfl⟩ := slice?_eq_some_iff.1 h
  refine ⟨after, ?_⟩
  rw [hcs, ← List.append_assoc]
  exact dropBytes?_append _ _

theorem slice?_append {i k j : Nat} {cs xs ys : List Char} (hxs : slice? i k cs = some xs)
    (hys : slice? k j cs = some ys) : slice? i j cs = some (xs ++ ys) := by
  obtain ⟨before, after, hcs, hi, hk⟩ := slice?_eq_some_iff.1 hxs
  obtain ⟨front, back, hcs', hk', hj⟩ := slice?_eq_some_iff.1 hys
  have hdrop : dropBytes? k cs = some after := by
    rw [hcs, ← hk, ← List.append_assoc]
    exact dropBytes?_append _ _
  have hdrop' : dropBytes? k cs = some (ys ++ back) := by
    rw [hcs', ← hk']
    exact dropBytes?_append _ _
  obtain rfl := Option.some.inj (hdrop.symm.trans hdrop')
  refine slice?_eq_some_iff.2 ⟨before, back, by rw [hcs, List.append_assoc], hi, ?_⟩
  rw [← hj, ← List.append_assoc, byteLength_append, byteLength_append front, hk, hk']

theorem byteLength_eq_zero_iff {cs : List Char} : byteLength cs = 0 ↔ cs = [] := by
  cases cs with
  | nil => simp
  | cons c cs =>
      have hc := c.utf8Size_pos
      simp only [byteLength_cons, reduceCtorEq, iff_false]
      omega

end Text

namespace Position

/-- The location behind a text that begins at a location. -/
def pastAll (p : Position) (cs : List Char) : Position :=
  cs.foldl (fun p c => p.past c) p

@[simp] theorem pastAll_nil (p : Position) : p.pastAll [] = p := rfl

@[simp] theorem pastAll_cons (p : Position) (c : Char) (cs : List Char) :
    p.pastAll (c :: cs) = (p.past c).pastAll cs := rfl

@[simp] theorem pastAll_append (p : Position) (xs ys : List Char) :
    p.pastAll (xs ++ ys) = (p.pastAll xs).pastAll ys :=
  List.foldl_append

@[simp] theorem offset_pastAll (p : Position) (cs : List Char) :
    (p.pastAll cs).offset = p.offset + Text.byteLength cs := by
  induction cs generalizing p with
  | nil => rfl
  | cons c cs ih => rw [pastAll_cons, ih, offset_past, Text.byteLength_cons, Nat.add_assoc]

/-- The row behind a text begins at a symbol boundary of it, and no column is before the first. -/
theorem exists_lineStart_pastAll (cs : List Char) :
    (∃ before after, cs = before ++ after ∧
      (start.pastAll cs).lineStart = Text.byteLength before) ∧
      1 ≤ (start.pastAll cs).column := by
  induction cs using List.reverseRecOn with
  | nil => exact ⟨⟨[], [], rfl, rfl⟩, Nat.le_refl 1⟩
  | append_singleton cs c ih =>
      obtain ⟨⟨before, after, hcs, hline⟩, hcolumn⟩ := ih
      rw [pastAll_append, pastAll_cons, pastAll_nil]
      by_cases hc : c = '\n'
      · refine ⟨⟨cs ++ [c], [], by simp, ?_⟩, by simp [past, hc]⟩
        simp [past, hc, start]
      · refine ⟨⟨before, after ++ [c], by rw [hcs, List.append_assoc], ?_⟩, by simp [past, hc]⟩
        simpa [past, hc] using hline

end Position

namespace Place

/-- From one place onward to another: part of what lies ahead is passed. -/
def Onward (p q : Place) : Prop :=
  ∃ taken, p.ahead = taken ++ q.ahead ∧ q.position = p.position.pastAll taken

namespace Onward

variable {p q r : Place}

theorem refl (p : Place) : p.Onward p :=
  ⟨[], rfl, rfl⟩

theorem trans (hpq : p.Onward q) (hqr : q.Onward r) : p.Onward r := by
  obtain ⟨xs, hxs, hq⟩ := hpq
  obtain ⟨ys, hys, hr⟩ := hqr
  exact ⟨xs ++ ys, by rw [hxs, hys, List.append_assoc], by rw [hr, hq, Position.pastAll_append]⟩

theorem offset_le (h : p.Onward q) : p.position.offset ≤ q.position.offset := by
  obtain ⟨taken, -, hq⟩ := h
  rw [hq, Position.offset_pastAll]
  exact Nat.le_add_right _ _

/-- Passing a symbol moves the offset, so a place with the same offset is the same place. -/
theorem eq_of_offset_eq (h : p.Onward q) (hoffset : q.position.offset = p.position.offset) :
    q = p := by
  obtain ⟨taken, hahead, hq⟩ := h
  have htaken : taken = [] := by
    rw [← Text.byteLength_eq_zero_iff]
    rw [hq, Position.offset_pastAll] at hoffset
    omega
  subst htaken
  cases p
  cases q
  simp_all

end Onward

theorem onward_next (p : Place) : p.Onward p.next := by
  obtain ⟨position, ahead⟩ := p
  cases ahead with
  | nil => exact Onward.refl _
  | cons c cs => exact ⟨[c], rfl, rfl⟩

theorem onward_reach (target : Nat) (position : Position) (cs : List Char) :
    Onward ⟨position, cs⟩ (reach target position cs) := by
  induction cs generalizing position with
  | nil => exact Onward.refl _
  | cons c cs ih =>
      rw [reach_cons]
      split
      · exact (onward_next ⟨position, c :: cs⟩).trans (ih (position.past c))
      · exact Onward.refl _

theorem onward_skipWhile (test : Char → Bool) (position : Position) (cs : List Char) :
    Onward ⟨position, cs⟩ (skipWhile test position cs) := by
  induction cs generalizing position with
  | nil => exact Onward.refl _
  | cons c cs ih =>
      rw [skipWhile_cons]
      split
      · exact (onward_next ⟨position, c :: cs⟩).trans (ih (position.past c))
      · exact Onward.refl _

/-- Moving to the offset behind a text that lies ahead passes exactly that text. -/
theorem reach_append (position : Position) (taken rest : List Char) :
    reach (position.offset + Text.byteLength taken) position (taken ++ rest) =
      ⟨position.pastAll taken, rest⟩ := by
  induction taken generalizing position with
  | nil => cases rest <;> simp [reach_cons]
  | cons c cs ih =>
      have hc := c.utf8Size_pos
      have htarget : position.offset + Text.byteLength (c :: cs) =
          (position.past c).offset + Text.byteLength cs := by
        rw [Position.offset_past, Text.byteLength_cons, Nat.add_assoc]
      rw [List.cons_append, reach_cons, if_pos (by rw [Text.byteLength_cons]; omega), htarget, ih]
      rfl

/-- A place of an input: its offset is a symbol boundary with the rest of the input ahead, and its
position is the one at which advancing from the beginning to that offset arrives. -/
def IsGenuine (input : List Char) (p : Place) : Prop :=
  Text.dropBytes? p.position.offset input = some p.ahead ∧
    (Cursor.ofInput input).positionAt p.position.offset = p.position

theorem isGenuine_iff {input : List Char} {p : Place} :
    p.IsGenuine input ↔ Onward ⟨.start, input⟩ p := by
  constructor
  · rintro ⟨hdrop, hposition⟩
    obtain ⟨passed, hinput, hlen⟩ := Text.exists_append_of_dropBytes? hdrop
    refine ⟨passed, hinput, ?_⟩
    have hreach := reach_append .start passed p.ahead
    rw [← hinput, hlen] at hreach
    rw [← hposition, ← Nat.zero_add p.position.offset]
    exact congrArg Place.position hreach
  · rintro ⟨passed, hinput, hposition⟩
    have hoffset : p.position.offset = Position.start.offset + Text.byteLength passed := by
      rw [hposition, Position.offset_pastAll]
    change input = passed ++ p.ahead at hinput
    change p.position = Position.start.pastAll passed at hposition
    constructor
    · rw [hoffset, hinput, Position.start, Nat.zero_add, Text.dropBytes?_append]
    · rw [hoffset, hposition, hinput]
      exact congrArg Place.position (reach_append .start passed p.ahead)

namespace IsGenuine

variable {input : List Char} {p q : Place}

theorem onward (hp : p.IsGenuine input) (h : p.Onward q) : q.IsGenuine input :=
  isGenuine_iff.2 ((isGenuine_iff.1 hp).trans h)

theorem exists_before (hp : p.IsGenuine input) :
    ∃ before, input = before ++ p.ahead ∧ p.position = Position.start.pastAll before :=
  isGenuine_iff.1 hp

theorem exists_boundary (hp : p.IsGenuine input) :
    ∃ before, input = before ++ p.ahead ∧ Text.byteLength before = p.position.offset := by
  obtain ⟨before, hinput, hposition⟩ := hp.exists_before
  refine ⟨before, hinput, ?_⟩
  rw [hposition, Position.offset_pastAll]
  exact (Nat.zero_add _).symm

/-- The line of a genuine place can be looked up, and its column is not before the first. -/
theorem exists_line (hp : p.IsGenuine input) :
    (∃ cs, Text.dropBytes? p.position.lineStart input = some cs) ∧ 1 ≤ p.position.column := by
  obtain ⟨passed, hinput, hposition⟩ := hp.exists_before
  obtain ⟨⟨before, after, hpassed, hline⟩, hcolumn⟩ := Position.exists_lineStart_pastAll passed
  rw [hposition]
  refine ⟨⟨after ++ p.ahead, ?_⟩, hcolumn⟩
  rw [hline, show input = before ++ (after ++ p.ahead) by
    rw [← List.append_assoc, ← hpassed]; exact hinput]
  exact Text.dropBytes?_append _ _

end IsGenuine

end Place

theorem ParseError.eq_of_locate {kind : ErrorKind} {message : String} {expectation : Expectation}
    {start reported : Position} {c : Cursor} {e : ParseError}
    (h : locate kind message expectation start reported c = .ok e) :
    ∃ found excerpt, c.symbolAt reported.offset = .ok found ∧
      c.excerpt start reported = .ok excerpt ∧
        e = ⟨kind, message, found, reported.row, reported.column, c.spanFrom start, expectation,
          excerpt⟩ := by
  unfold locate at h
  cases hfound : c.symbolAt reported.offset with
  | error f => simp [hfound, bind, Except.bind] at h
  | ok found =>
      cases hexcerpt : c.excerpt start reported with
      | error f => simp [hfound, hexcerpt, bind, Except.bind] at h
      | ok excerpt =>
          simp only [hfound, hexcerpt, bind, Except.bind, pure, Except.pure,
            Except.ok.injEq] at h
          exact ⟨found, excerpt, rfl, rfl, h.symm⟩

/-- Every look at the input that an error takes is defined if it is about genuine places. -/
theorem ParseError.exists_locate {c : Cursor} {p q : Place} (hp : p.IsGenuine c.input)
    (hq : q.IsGenuine c.input) (kind : ErrorKind) (message : String) (expectation : Expectation) :
    ∃ e, locate kind message expectation p.position q.position c = .ok e := by
  have hexcerpt : ∃ text, c.excerpt p.position q.position = .ok text := by
    unfold Cursor.excerpt
    split
    · obtain ⟨⟨cs, hline⟩, hcolumn⟩ := hp.exists_line
      simp [Cursor.line, hline, Nat.ne_of_gt hcolumn, bind, Except.bind, pure, Except.pure]
    · obtain ⟨⟨cs, hline⟩, hcolumn⟩ := hq.exists_line
      simp [Cursor.line, hline, Nat.ne_of_gt hcolumn, bind, Except.bind, pure, Except.pure]
  obtain ⟨text, htext⟩ := hexcerpt
  simp [locate, Cursor.symbolAt, hq.1, htext, bind, Except.bind, pure, Except.pure]

end ParserAlgebra
