import Mathlib.Order.Bounds.Basic
import ParserAlgebra.Proofs.Diagnosis

/-!
# Positions are canonical

Offset, row, column and line start are counted along with each symbol that is passed, and they are
saved and restored together. However a cursor has been moved, all four are those of the text before
its place, so on one input the offset alone tells the position. Moving to an offset stops at the
first symbol boundary that is not before it.
-/

namespace ParserAlgebra

namespace Text

/-- The byte offset at which the row of the symbol behind a text begins: behind the last line feed,
or at the beginning. -/
def lineStartBehind (before : List Char) : Nat :=
  byteLength (before.rdropWhile (· ≠ '\n'))

/-- The byte offsets between the symbols of a text, its beginning and its end. -/
def boundaries (cs : List Char) : Set Nat :=
  {n | ∃ before ahead, cs = before ++ ahead ∧ byteLength before = n}

/-- Of two beginnings of a text the one that has not fewer bytes goes on from the other one. -/
theorem exists_append_of_byteLength_le {xs ys us vs : List Char} (h : xs ++ ys = us ++ vs)
    (hle : byteLength xs ≤ byteLength us) : ∃ ws, us = xs ++ ws ∧ ys = ws ++ vs := by
  rcases List.append_eq_append_iff.1 h with hws | ⟨ws, rfl, rfl⟩
  · exact hws
  · have hws : ws = [] := by
      rw [← byteLength_eq_zero_iff]
      rw [byteLength_append] at hle
      omega
    exact ⟨[], by simp [hws], by simp [hws]⟩

end Text

namespace Position

/-- The location behind a text that begins an input. -/
def behind (before : List Char) : Position where
  offset := Text.byteLength before
  row := Text.rowBehind before
  column := Text.columnBehind before
  lineStart := Text.lineStartBehind before

theorem lineStart_pastAll (cs : List Char) :
    (start.pastAll cs).lineStart = Text.lineStartBehind cs := by
  induction cs using List.reverseRecOn with
  | nil => rfl
  | append_singleton cs c ih =>
      rw [pastAll_append, pastAll_cons, pastAll_nil, Text.lineStartBehind, past]
      by_cases hc : c = '\n'
      · rw [if_pos hc, List.rdropWhile_concat_neg _ _ _ (by simp [hc]), offset_pastAll]
        simp [start]
      · rw [if_neg hc, List.rdropWhile_concat_pos _ _ _ (by simp [hc])]
        exact ih

/-- What is counted symbol by symbol is told by the text as a whole. -/
theorem pastAll_start (before : List Char) : start.pastAll before = behind before := by
  have hoffset : (start.pastAll before).offset = Text.byteLength before := by
    rw [offset_pastAll]
    exact Nat.zero_add _
  have hrow := row_pastAll before
  have hcolumn := column_pastAll before
  have hlineStart := lineStart_pastAll before
  cases hp : start.pastAll before
  simp_all [behind]

theorem compare_self (p : Position) : p.compare p = .eq := by
  simp [compare]

end Position

namespace Place

variable {input cs u v : List Char} {p q : Place} {target later : Nat}

namespace IsGenuine

/-- On one input the offset tells the place. -/
theorem eq_of_offset_eq (hp : p.IsGenuine input) (hq : q.IsGenuine input)
    (h : p.position.offset = q.position.offset) : p = q := by
  obtain ⟨hdropp, hpositionp⟩ := hp
  obtain ⟨hdropq, hpositionq⟩ := hq
  have hahead : p.ahead = q.ahead := by
    rw [h] at hdropp
    exact Option.some.inj (hdropp.symm.trans hdropq)
  have hposition : p.position = q.position := by
    rw [← hpositionp, ← hpositionq, h]
  cases p
  cases q
  simp_all

theorem offset_eq_iff (hp : p.IsGenuine input) (hq : q.IsGenuine input) :
    p.position.offset = q.position.offset ↔ p.position = q.position :=
  ⟨fun h => congrArg Place.position (hp.eq_of_offset_eq hq h), congrArg Position.offset⟩

/-- Offsets that are the same leave nothing else to compare. -/
theorem compare_eq (hp : p.IsGenuine input) (hq : q.IsGenuine input) :
    p.position.compare q.position = compare p.position.offset q.position.offset := by
  by_cases h : p.position.offset = q.position.offset
  · rw [(hp.offset_eq_iff hq).1 h, Position.compare_self]
    simp
  · have hne : compare p.position.offset q.position.offset ≠ .eq := by simpa using h
    rw [Position.compare]
    cases hcompare : compare p.position.offset q.position.offset with
    | lt | gt => rfl
    | eq => exact absurd hcompare hne

theorem exists_behind (hp : p.IsGenuine input) :
    ∃ before, input = before ++ p.ahead ∧ p.position = .behind before := by
  obtain ⟨before, hinput, hposition⟩ := hp.exists_before
  exact ⟨before, hinput, hposition.trans (Position.pastAll_start before)⟩

end IsGenuine

section Reach

/-- A move to an offset ends there or behind it, unless it ends with the text. -/
theorem le_offset_reach (target : Nat) (position : Position) (cs : List Char) :
    min target (position.offset + Text.byteLength cs) ≤
      (reach target position cs).position.offset := by
  induction cs generalizing position with
  | nil => simp
  | cons c cs ih =>
      rw [reach_cons]
      split
      · have hrest := ih (position.past c)
        rwa [Position.offset_past, Nat.add_assoc, ← Text.byteLength_cons] at hrest
      · dsimp only
        omega

/-- A move to an offset does not pass a boundary that is far enough. -/
theorem offset_reach_le (position : Position) (h : cs = u ++ v)
    (htarget : min target (position.offset + Text.byteLength cs) ≤
      position.offset + Text.byteLength u) :
    (reach target position cs).position.offset ≤ position.offset + Text.byteLength u := by
  induction cs generalizing position u with
  | nil => simp
  | cons c cs ih =>
      have hc := c.utf8Size_pos
      rw [reach_cons]
      split
      · cases u with
        | nil =>
            simp only [Text.byteLength_cons, Text.byteLength_nil] at htarget
            omega
        | cons d u =>
            obtain ⟨rfl, hcs⟩ := List.cons.inj h
            have hrest := ih (position.past c) hcs
            simp only [Position.offset_past, Text.byteLength_cons, Nat.add_assoc]
              at hrest htarget ⊢
            exact hrest htarget
      · exact Nat.le_add_right _ _

/-- A stop on the way makes no difference. -/
theorem reach_reach (h : target ≤ later) (position : Position) (cs : List Char) :
    reach later (reach target position cs).position (reach target position cs).ahead =
      reach later position cs := by
  induction cs generalizing position with
  | nil => rfl
  | cons c cs ih =>
      rw [reach_cons]
      split
      · have hlater : position.offset < later := by omega
        rw [ih, reach_cons, if_pos hlater]
      · rfl

end Reach

end Place

namespace Cursor

/-- What can be done with a cursor. -/
inductive Operation where
  | advance
  | advanceTo (target : Nat)
  | checkpoint
  | backtrack
  | commit

/-- Carries out an operation; closing a checkpoint that is not there is refused. -/
def Operation.perform : Operation → Cursor → Except Fault Cursor
  | .advance, c => .ok c.advance
  | .advanceTo target, c => .ok (c.advanceTo target)
  | .checkpoint, c => .ok c.checkpoint
  | .backtrack, c => c.backtrack
  | .commit, c => c.commit

/-- The cursor behind an operation, which is the same cursor if the operation is refused. -/
def Operation.apply (op : Operation) (c : Cursor) : Cursor :=
  match op.perform c with
  | .ok d => d
  | .error _ => c

/-- The cursor behind operations, one after the other. -/
def after (c : Cursor) (ops : List Operation) : Cursor :=
  ops.foldl (fun c op => op.apply c) c

/-- The place of a cursor and the places that it can still return to. -/
def places (c : Cursor) : List Place :=
  c.place :: c.checkpoints

variable {c d : Cursor} {op : Operation} {p : Place} {input : List Char} {target later : Nat}

@[simp] theorem after_nil (c : Cursor) : c.after [] = c := rfl

@[simp] theorem after_cons (c : Cursor) (op : Operation) (ops : List Operation) :
    c.after (op :: ops) = (op.apply c).after ops := rfl

theorem after_append (c : Cursor) (ops ops' : List Operation) :
    c.after (ops ++ ops') = (c.after ops).after ops' :=
  List.foldl_append

theorem place_mem_places (c : Cursor) : c.place ∈ c.places :=
  List.mem_cons_self

@[simp] theorem apply_advanceTo (target : Nat) (c : Cursor) :
    (Operation.advanceTo target).apply c = c.advanceTo target := rfl

theorem WellFormed.isGenuine (h : c.WellFormed) (hp : p ∈ c.places) : p.IsGenuine c.input := by
  rcases List.mem_cons.1 hp with rfl | hp
  · exact h.place
  · exact h.checkpoints p hp

theorem WellFormed.backtrack (h : c.WellFormed) (hd : c.backtrack = .ok d) :
    d.WellFormed ∧ d.input = c.input := by
  obtain ⟨input, place, checkpoints⟩ := c
  cases checkpoints with
  | nil => cases hd
  | cons p ps =>
      cases hd
      obtain ⟨hp, hps⟩ := List.forall_mem_cons.1 h.checkpoints
      exact ⟨⟨hp, hps⟩, rfl⟩

theorem WellFormed.commit (h : c.WellFormed) (hd : c.commit = .ok d) :
    d.WellFormed ∧ d.input = c.input := by
  obtain ⟨input, place, checkpoints⟩ := c
  cases checkpoints with
  | nil => cases hd
  | cons p ps =>
      cases hd
      obtain ⟨-, hps⟩ := List.forall_mem_cons.1 h.checkpoints
      exact ⟨⟨h.place, hps⟩, rfl⟩

/-- An operation leads from genuine places to genuine places. -/
theorem WellFormed.perform (h : c.WellFormed) (hd : op.perform c = .ok d) :
    d.WellFormed ∧ d.input = c.input := by
  cases op with
  | advance =>
      cases hd
      exact ⟨(onward_advance c).wellFormed h, rfl⟩
  | advanceTo target =>
      cases hd
      exact ⟨(onward_advanceTo target c).wellFormed h, rfl⟩
  | checkpoint =>
      cases hd
      exact ⟨h.checkpoint, rfl⟩
  | backtrack => exact h.backtrack hd
  | commit => exact h.commit hd

theorem WellFormed.apply (h : c.WellFormed) (op : Operation) :
    (op.apply c).WellFormed ∧ (op.apply c).input = c.input := by
  unfold Operation.apply
  split
  · exact h.perform ‹_›
  · exact ⟨h, rfl⟩

theorem WellFormed.after (h : c.WellFormed) (ops : List Operation) :
    (c.after ops).WellFormed ∧ (c.after ops).input = c.input := by
  induction ops generalizing c with
  | nil => exact ⟨h, rfl⟩
  | cons op ops ih =>
      obtain ⟨hnext, hinput⟩ := h.apply op
      obtain ⟨hlast, hsame⟩ := ih hnext
      exact ⟨hlast, hsame.trans hinput⟩

theorem isGenuine_of_mem_places {ops : List Operation}
    (hp : p ∈ ((ofInput input).after ops).places) : p.IsGenuine input := by
  obtain ⟨hwellFormed, hinput⟩ := (wellFormed_ofInput input).after ops
  have hgenuine := hwellFormed.isGenuine hp
  rwa [hinput] at hgenuine

theorem liesIn_after (input : List Char) (ops : List Operation) :
    ((ofInput input).after ops).LiesIn input :=
  ⟨((wellFormed_ofInput input).after ops).2, isGenuine_of_mem_places (place_mem_places _)⟩

theorem LiesIn.isLeast_advanceTo (hc : c.LiesIn input) (k : Nat) :
    IsLeast {n ∈ Text.boundaries input | max c.offset (min k (Text.byteLength input)) ≤ n}
      (c.advanceTo k).offset := by
  have honward := onward_advanceTo k c
  obtain ⟨before, hinput, hoffset⟩ := hc.exists_append
  obtain ⟨passed, hpassed, hreached⟩ := (hc.onward honward).exists_append
  have hlength : Text.byteLength input = c.offset + Text.byteLength c.ahead := by
    rw [hinput, Text.byteLength_append, hoffset]
  constructor
  · refine ⟨⟨passed, _, hpassed, hreached.symm⟩, max_le honward.offset_le ?_⟩
    rw [hlength]
    exact Place.le_offset_reach k c.position c.ahead
  · rintro n ⟨⟨us, vs, hsplit, rfl⟩, hle⟩
    have hbehind : Text.byteLength before ≤ Text.byteLength us :=
      hoffset ▸ (le_max_left _ _).trans hle
    obtain ⟨ws, rfl, hahead⟩ :=
      Text.exists_append_of_byteLength_le (hinput.symm.trans hsplit) hbehind
    have htarget := (le_max_right _ _).trans hle
    rw [hlength, Text.byteLength_append, ← hoffset] at htarget
    rw [Text.byteLength_append, ← hoffset]
    exact Place.offset_reach_le c.position hahead htarget

theorem advanceTo_advanceTo (h : target ≤ later) (c : Cursor) :
    (c.advanceTo target).advanceTo later = c.advanceTo later :=
  congrArg (fun place => { c with place }) (Place.reach_reach h c.position c.ahead)

theorem after_advanceTo (c : Cursor) {targets : List Nat} {k : Nat} (h : ∀ t ∈ targets, t ≤ k) :
    c.after ((targets ++ [k]).map .advanceTo) = c.advanceTo k := by
  induction targets generalizing c with
  | nil => rfl
  | cons t targets ih =>
      obtain ⟨ht, htargets⟩ := List.forall_mem_cons.1 h
      rw [List.cons_append, List.map_cons, after_cons, apply_advanceTo, ih _ htargets,
        advanceTo_advanceTo ht]

theorem after_advances {taken rest : List Char} (h : c.ahead = taken ++ rest) :
    c.after (List.replicate taken.length .advance) =
      { c with place := ⟨c.position.pastAll taken, rest⟩ } := by
  induction taken generalizing c with
  | nil =>
      obtain ⟨input, ⟨position, ahead⟩, checkpoints⟩ := c
      cases h
      rfl
  | cons s taken ih =>
      obtain ⟨input, ⟨position, ahead⟩, checkpoints⟩ := c
      cases h
      exact ih rfl

/-- Whatever leads a cursor onward could as well advance it. -/
theorem Onward.exists_after (h : c.Onward d) : ∃ n, d = c.after (List.replicate n .advance) := by
  obtain ⟨taken, hahead, hposition⟩ := h.place
  refine ⟨taken.length, ?_⟩
  rw [after_advances hahead]
  obtain ⟨input, ⟨position, ahead⟩, checkpoints⟩ := d
  cases h.input
  cases h.checkpoints
  cases hposition
  rfl

/-- However a cursor has been moved, its position and the saved ones are those of the texts before
their places. So on one input the offset tells the position, and comparing offsets is comparing
positions; that goes for what a run reaches too. A move to an offset leads to the first boundary
that lies neither before the cursor nor, as far as the input goes, before that offset, and moves to
smaller offsets on the way there make no difference. -/
theorem positions_canonical (input : List Char) (ops : List Operation) :
    let c := (ofInput input).after ops
    (∀ p ∈ c.places, p.position.offset ≤ Text.byteLength input ∧
      ∃ before, input = before ++ p.ahead ∧ p.position = .behind before) ∧
    (∀ ops', ∀ p ∈ c.places, ∀ q ∈ ((ofInput input).after ops').places,
      (p.position.offset = q.position.offset ↔ p.position = q.position) ∧
        p.position.compare q.position = compare p.position.offset q.position.offset) ∧
    (∀ k, ∃ before, (c.advanceTo k).position = .behind before ∧
      IsLeast {n ∈ Text.boundaries input | max c.offset (min k (Text.byteLength input)) ≤ n}
        (Text.byteLength before)) ∧
    (∀ targets k, (targets ++ [k]).Pairwise (· ≤ ·) →
      c.after ((targets ++ [k]).map .advanceTo) = c.advanceTo k) ∧
    ∀ {σ : Type} (env : Environment σ) (n : Nat) (g : Grammar σ) (slot : Option Value) (state : σ)
      (o : Outcome σ), env.run n g ⟨c, slot, state⟩ = .ok o →
        (∃ ops', o.config.cursor = (ofInput input).after ops') ∧
          (o.config.cursor.offset = c.offset ↔ o.config.cursor.position = c.position) := by
  intro c
  have hc : c.LiesIn input := liesIn_after input ops
  refine ⟨fun p hp => ?_, fun ops' p hp q hq => ?_, fun k => ?_, fun targets k h => ?_,
    fun env n g slot state o ho => ?_⟩
  · obtain ⟨before, hinput, hposition⟩ := (isGenuine_of_mem_places hp).exists_behind
    refine ⟨?_, before, hinput, hposition⟩
    rw [hposition, hinput, Text.byteLength_append]
    exact Nat.le_add_right _ _
  · have hp := isGenuine_of_mem_places hp
    have hq := isGenuine_of_mem_places hq
    exact ⟨hp.offset_eq_iff hq, hp.compare_eq hq⟩
  · have hgenuine := (hc.onward (onward_advanceTo k c)).isGenuine
    obtain ⟨before, -, hposition⟩ := hgenuine.exists_behind
    refine ⟨before, hposition, ?_⟩
    have hoffset : (c.advanceTo k).offset = Text.byteLength before :=
      congrArg Position.offset hposition
    rw [← hoffset]
    exact hc.isLeast_advanceTo k
  · exact after_advanceTo c fun t ht => (List.pairwise_append.1 h).2.2 t ht k (by simp)
  · have honward : c.Onward o.config.cursor := (env.orderly_run n g ⟨c, slot, state⟩).of_eq_ok ho
    obtain ⟨count, hcount⟩ := honward.exists_after
    refine ⟨⟨ops ++ List.replicate count .advance, ?_⟩, ?_⟩
    · rw [after_append]
      exact hcount
    · exact (hc.onward honward).isGenuine.offset_eq_iff hc.isGenuine

/-- A commit that is refused, a move to an offset within a symbol, and a checkpoint left open on an
earlier row. -/
theorem positions_canonical_rows :
    let ops : List Operation :=
      [.commit, .advanceTo 1, .checkpoint, .advance, .checkpoint, .advanceTo 4, .commit]
    let c := (ofInput ['é', '\n', 'ß', 'a']).after ops
    let d := (ofInput ['é', '\n', 'ß', 'a']).after [.advanceTo 2]
    let o : Outcome Nat := (⟨c.advance, none, 0⟩ : Config Nat).matched
    c.places.map (·.position) = [⟨5, 2, 2, 3⟩, ⟨2, 1, 2, 0⟩] ∧ d.place ∈ d.places ∧
      (∀ p ∈ c.places, p.position.compare d.position = compare p.position.offset 2) ∧
      [5, 6, 9].Pairwise (· ≤ ·) ∧ c.after ([5, 6, 9].map .advanceTo) = c.advanceTo 9 ∧
      (⟨.empty, .off⟩ : Environment Nat).run 1 (.accept (.symbol 'a')) ⟨c, none, 0⟩ = .ok o ∧
      (o.config.cursor.offset = c.offset ↔ o.config.cursor.position = c.position) := by
  intro ops c d o
  obtain ⟨-, horder, -, hchain, hruns⟩ := positions_canonical ['é', '\n', 'ß', 'a'] ops
  have hd : d.place ∈ d.places := d.place_mem_places
  have hrun : (⟨.empty, .off⟩ : Environment Nat).run 1 (.accept (.symbol 'a')) ⟨c, none, 0⟩ =
      .ok o := rfl
  refine ⟨rfl, hd, fun p hp => (horder [.advanceTo 2] p hp d.place hd).2, by decide,
    hchain [5, 6] 9 (by decide), hrun, ?_⟩
  exact (hruns _ _ _ _ _ _ hrun).2

end Cursor

end ParserAlgebra
