import ParserAlgebra.Proofs.Recognition
import ParserAlgebra.Proofs.Results

/-!
# Literals spelled out

A literal compares the bytes of its text with the bytes ahead and then moves on by their number. A
sequence of single symbols compares and moves symbol by symbol, and a mismatch may leave it anywhere
in the text. Since the bytes of a symbol do not begin those of another one, both compare alike, and
the literal is what an attempt makes of the sequence.
-/

namespace ParserAlgebra

variable {σ : Type}

namespace Text

variable {s t : Char} {xs ys : List Char}

/-- The UTF-8 form of a text. -/
def bytes (cs : List Char) : List UInt8 :=
  cs.flatMap String.utf8EncodeChar

@[simp] theorem bytes_nil : bytes [] = [] := rfl

@[simp] theorem bytes_cons (c : Char) (cs : List Char) :
    bytes (c :: cs) = String.utf8EncodeChar c ++ bytes cs := rfl

theorem length_bytes (cs : List Char) : (bytes cs).length = byteLength cs := by
  induction cs with
  | nil => rfl
  | cons c cs ih => simp [ih]

/-- The bytes that begin with those of a symbol tell which symbol it is. -/
theorem eq_of_utf8EncodeChar_append {us vs : List UInt8}
    (h : String.utf8EncodeChar s ++ us = String.utf8EncodeChar t ++ vs) : s = t := by
  have harray := congrArg List.toByteArray h
  rw [List.toByteArray_append, List.toByteArray_append] at harray
  have hs := ByteArray.utf8DecodeChar?_utf8EncodeChar_append (b := us.toByteArray) (c := s)
  rw [harray, ByteArray.utf8DecodeChar?_utf8EncodeChar_append] at hs
  exact (Option.some.inj hs).symm

/-- A text begins another one exactly if its bytes begin the bytes of the other. -/
theorem bytes_prefix_iff : bytes xs <+: bytes ys ↔ xs <+: ys := by
  constructor
  · intro h
    induction xs generalizing ys with
    | nil => exact List.nil_prefix
    | cons x xs ih =>
        obtain ⟨rest, hrest⟩ := h
        rw [bytes_cons, List.append_assoc] at hrest
        cases ys with
        | nil =>
            have hx := x.utf8Size_pos
            have hlength := congrArg List.length hrest
            simp at hlength
            omega
        | cons y ys =>
            obtain rfl := eq_of_utf8EncodeChar_append hrest
            have hxs := ih ⟨rest, List.append_cancel_left hrest⟩
            exact List.cons_prefix_cons.2 ⟨rfl, hxs⟩
  · rintro ⟨rest, rfl⟩
    exact ⟨bytes rest, List.flatMap_append.symm⟩

end Text

/-- The sequences of the single symbols of a text, however they are grouped. -/
inductive Grammar.Spells : Grammar σ → List Char → Prop
  | nothing : Spells .succeed []
  | symbol (s : Char) : Spells (.accept (.symbol s)) [s]
  | sequence {a b : Grammar σ} {u v : List Char} (ha : Spells a u) (hb : Spells b v) :
      Spells (.sequence a b) (u ++ v)

/-- The symbols of a text, one behind the other. -/
def Grammar.spelled : List Char → Grammar σ
  | [] => .succeed
  | [s] => .accept (.symbol s)
  | s :: t :: rest => .sequence (.accept (.symbol s)) (spelled (t :: rest))

theorem Grammar.spells_spelled (cs : List Char) : (spelled cs : Grammar σ).Spells cs := by
  fun_induction spelled cs with
  | case1 => exact .nothing
  | case2 s => exact .symbol s
  | case3 s t rest ih => exact .sequence (.symbol s) ih

namespace Environment

variable {env : Environment σ} {g : Grammar σ} {c d d' : Config σ} {verdict verdict' : Verdict}
  {u : List Char}

theorem ResultsIn.iff (h : env.ResultsIn g c verdict d) :
    env.ResultsIn g c verdict' d' ↔ verdict' = verdict ∧ d' = d := by
  constructor
  · intro h'
    exact h'.unique h
  · rintro ⟨rfl, rfl⟩
    exact h

theorem ResultsIn.attempt (h : env.ResultsIn g c verdict d) :
    env.ResultsIn (.attempt g) c verdict (if verdict = .matched then d else c) := by
  obtain ⟨records, hg⟩ := resultsIn_iff.1 h
  obtain ⟨records', hattempt⟩ := exists_yields_attempt hg
  exact resultsIn_iff.2 ⟨records', hattempt⟩

theorem takes_of_spells (hg : g.Spells u) (h : u <+: c.cursor.ahead) :
    env.ResultsIn g c .matched (c.take u) := by
  induction hg generalizing c with
  | nothing => exact resultsIn_succeed_iff.2 ⟨rfl, c.take_nil⟩
  | symbol s =>
      obtain ⟨rest, hrest⟩ := h
      have hsymbol : c.cursor.symbol? = some s := congrArg List.head? hrest.symm
      have haccepts : (Predicate.symbol s).accepts c.cursor.symbol? = true := by
        simp [hsymbol, Predicate.accepts]
      rw [← Config.takeSymbol_eq_take hrest.symm]
      exact ⟨1, [], env.run_accept 0 haccepts⟩
  | @sequence a b u v _ _ iha ihb =>
      obtain ⟨rest, hrest⟩ := h
      rw [List.append_assoc] at hrest
      have hahead := Config.ahead_take hrest.symm
      have ha := iha ⟨v ++ rest, hrest⟩
      have hb := ihb ⟨rest, hahead.symm⟩
      rw [Config.take_take hrest.symm] at hb
      exact resultsIn_sequence_iff.2 (.inl ⟨_, ha, hb⟩)

/-- Where another text lies ahead, some symbol mismatches. -/
theorem mismatches_of_spells (hg : g.Spells u) (h : ¬u <+: c.cursor.ahead) :
    ∃ d, env.ResultsIn g c .mismatched d := by
  induction hg generalizing c with
  | nothing => exact absurd List.nil_prefix h
  | symbol s =>
      have hrejects : ¬(Predicate.symbol s).accepts c.cursor.symbol? = true := by
        intro haccepts
        have hsymbol : c.cursor.symbol? = some s := by simpa [Predicate.accepts] using haccepts
        obtain ⟨rest, hrest⟩ := List.head?_eq_some_iff.1 hsymbol
        exact h ⟨rest, hrest.symm⟩
      exact ⟨c, 1, [], run_accept_of_rejected 0 hrejects⟩
  | @sequence a b u v ha _ iha ihb =>
      -- If the text of the first part lies ahead, it is the second part that mismatches.
      by_cases hu : u <+: c.cursor.ahead
      · have hfirst : env.ResultsIn a c .matched (c.take u) :=
          takes_of_spells ha hu
        obtain ⟨rest, hrest⟩ := hu
        rw [← hrest, List.prefix_append_right_inj, ← Config.ahead_take hrest.symm] at h
        obtain ⟨d, hd⟩ := ihb h
        exact ⟨d, resultsIn_sequence_iff.2 (.inl ⟨_, hfirst, hd⟩)⟩
      · obtain ⟨d, hd⟩ := iha hu
        exact ⟨d, resultsIn_sequence_iff.2 (.inr ⟨nofun, hd⟩)⟩

theorem resultsIn_literal_of_ahead {s : String} (h : s.toList <+: c.cursor.ahead) :
    env.ResultsIn (.literal s) c .matched (c.take s.toList) :=
  ⟨1, [], congrArg Except.ok (if_pos (List.isPrefixOf_iff_prefix.2 h))⟩

theorem resultsIn_literal_of_not_ahead {s : String} (h : ¬s.toList <+: c.cursor.ahead) :
    env.ResultsIn (.literal s) c .mismatched c :=
  ⟨1, [], congrArg Except.ok (if_neg fun hprefix => h (List.isPrefixOf_iff_prefix.1 hprefix))⟩

/-- A literal results in what an attempt of its single symbols results in. If the bytes of its text
begin the bytes ahead, it matches: the cursor moves on by their number, and the text goes into the
slot. Otherwise it mismatches, with nothing changed. -/
theorem literal_spelled (env : Environment σ) (s : String) (g : Grammar σ)
    (hg : g.Spells s.toList) (c : Config σ) :
    (∀ verdict d, env.ResultsIn (.literal s) c verdict d ↔
      env.ResultsIn (.attempt g) c verdict d) ∧
    ∀ verdict d, env.ResultsIn (.literal s) c verdict d ↔
      if Text.bytes s.toList <+: Text.bytes c.cursor.ahead then
        verdict = .matched ∧ d =
          { c with
            cursor := c.cursor.advanceTo (c.cursor.offset + (Text.bytes s.toList).length)
            slot := c.slot.map (·.pushText s) }
      else verdict = .mismatched ∧ d = c := by
  by_cases h : s.toList <+: c.cursor.ahead
  · have hliteral : env.ResultsIn (.literal s) c .matched (c.take s.toList) :=
      resultsIn_literal_of_ahead h
    have hattempt : env.ResultsIn (.attempt g) c .matched (c.take s.toList) :=
      (takes_of_spells hg h).attempt
    refine ⟨fun verdict d => hliteral.iff.trans hattempt.iff.symm, fun verdict d => ?_⟩
    rw [if_pos (Text.bytes_prefix_iff.2 h), hliteral.iff, Text.length_bytes, Config.take,
      String.ofList_toList]
  · have hliteral : env.ResultsIn (.literal s) c .mismatched c :=
      resultsIn_literal_of_not_ahead h
    obtain ⟨e, hspelled⟩ : ∃ e, env.ResultsIn g c .mismatched e :=
      mismatches_of_spells hg h
    have hattempt : env.ResultsIn (.attempt g) c .mismatched c := hspelled.attempt
    refine ⟨fun verdict d => hliteral.iff.trans hattempt.iff.symm, fun verdict d => ?_⟩
    rw [if_neg (mt Text.bytes_prefix_iff.1 h), hliteral.iff]

/-- A text with a line feed in it, grouped in an odd way, behind the first row and a checkpoint; and
the same text where its last symbol does not lie ahead. -/
theorem literal_spelled_laterRow :
    let s := String.ofList ['ß', '\n', 'x']
    let g : Grammar Nat := .sequence (.sequence .succeed (.accept (.symbol 'ß')))
      (.sequence (.accept (.symbol '\n')) (.accept (.symbol 'x')))
    let env : Environment Nat := ⟨.empty, .trace⟩
    let c : Config Nat :=
      ⟨((Cursor.ofInput ['é', '\n', 'ß', '\n', 'x', 'y']).checkpoint.advanceTo 2).advance,
        some (.text "v"), 0⟩
    let c' : Config Nat := ⟨.ofInput ['ß', '\n', 'y'], none, 0⟩
    g.Spells s.toList ∧
      (∃ d, env.ResultsIn (.literal s) c .matched d ∧ env.ResultsIn (.attempt g) c .matched d ∧
        d.cursor.position = ⟨7, 3, 2, 6⟩ ∧ d.cursor.checkpoints = c.cursor.checkpoints ∧
        d.slot = some (.text "vß\nx")) ∧
      env.ResultsIn (.literal s) c' .mismatched c' ∧
      env.ResultsIn (.attempt (.spelled s.toList)) c' .mismatched c' := by
  intro s g env c c'
  have htext : s.toList = ['ß', '\n', 'x'] := String.toList_ofList
  have hg : g.Spells s.toList := by
    rw [htext]
    exact .sequence (.sequence .nothing (.symbol 'ß')) (.sequence (.symbol '\n') (.symbol 'x'))
  obtain ⟨hsame, -⟩ := env.literal_spelled s g hg c
  have hspelled : (Grammar.spelled s.toList : Grammar Nat).Spells s.toList :=
    Grammar.spells_spelled s.toList
  obtain ⟨hsame', -⟩ := env.literal_spelled s (.spelled s.toList) hspelled c'
  have hmatched : env.ResultsIn (.literal s) c .matched (c.take ['ß', '\n', 'x']) := by
    rw [← htext]
    exact resultsIn_literal_of_ahead (htext ▸ ⟨['y'], rfl⟩)
  have hmismatched : env.ResultsIn (.literal s) c' .mismatched c' :=
    resultsIn_literal_of_not_ahead (htext ▸ by decide)
  exact ⟨hg, ⟨_, hmatched, (hsame _ _).1 hmatched, rfl, rfl, rfl⟩, hmismatched,
    (hsame' _ _).1 hmismatched⟩

end Environment

end ParserAlgebra
