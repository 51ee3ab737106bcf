import Mathlib.Computability.Language
import Mathlib.Order.CompletePartialOrder
import ParserAlgebra.Proofs.SlotDiscipline

/-!
# One symbol of lookahead

Read as an expression over symbols, a grammar describes a language. If the symbol that comes next
always tells which branch to take, and whether to go on with an iteration, then greed and the order
of the branches do no harm: without any attempt, a run takes each text of the language that does not
go on in the language, and a text that begins in another way is not touched.
-/

namespace ParserAlgebra

/-- The symbols with which a text of a language begins. -/
def firsts (l : Language Char) : Set Char :=
  {s | ∃ y, s :: y ∈ l}

/-- The symbols with which a text of a language goes on to another one. -/
def extensions (l : Language Char) : Set Char :=
  {s | ∃ w y, w ∈ l ∧ w ++ s :: y ∈ l}

/-- No text of a language begins with the next symbol. -/
def Misses (l : Language Char) (ahead : List Char) : Prop :=
  ∀ s ∈ ahead.head?, s ∉ firsts l

/-- No text of a language goes on with the next symbol. -/
def Stops (l : Language Char) (ahead : List Char) : Prop :=
  ∀ s ∈ ahead.head?, s ∉ extensions l

section Languages

variable {l m : Language Char} {w x : List Char} {n : Nat}

theorem Misses.mono (h : Misses m x) (hle : l ≤ m) : Misses l x := by
  rintro s hs ⟨y, hy⟩
  exact h s hs ⟨y, hle hy⟩

theorem Stops.mono (h : Stops m x) (hle : l ≤ m) : Stops l x := by
  rintro s hs ⟨u, y, hu, hy⟩
  exact h s hs ⟨u, y, hle hu, hle hy⟩

/-- Each text of a language goes on from the empty one. -/
theorem Stops.misses (h : Stops l x) (hnil : [] ∈ l) : Misses l x := by
  rintro s hs ⟨y, hy⟩
  exact h s hs ⟨[], y, hnil, hy⟩

theorem misses_of_disjoint (hdisjoint : Disjoint (firsts l) (firsts m)) (hw : w ∈ m)
    (hne : w ≠ []) : Misses l (w ++ x) := by
  obtain ⟨s, y, rfl⟩ := List.exists_cons_of_ne_nil hne
  rintro _ ⟨⟩ hs
  exact Set.disjoint_left.1 hdisjoint hs ⟨y, hw⟩

theorem stops_of_disjoint (hdisjoint : Disjoint (extensions l) (firsts m)) (hw : w ∈ m)
    (hne : w ≠ []) : Stops l (w ++ x) := by
  obtain ⟨s, y, rfl⟩ := List.exists_cons_of_ne_nil hne
  rintro _ ⟨⟩ hs
  exact Set.disjoint_left.1 hdisjoint hs ⟨y, hw⟩

/-- A text goes on with a symbol of another text of the language. -/
theorem not_mem_extensions {P : Char → Prop} (hl : ∀ w ∈ l, ∀ s ∈ w, P s) {s : Char} (hs : ¬ P s) :
    s ∉ extensions l := by
  rintro ⟨w, y, -, hy⟩
  exact hs (hl _ hy s (by simp))

section Mul

theorem Stops.first_of_nil (h : Stops (l * m) x) (hnil : [] ∈ m) : Stops l x := by
  refine h.mono fun u hu => ?_
  exact Language.mem_mul.2 ⟨u, hu, [], hnil, List.append_nil u⟩

theorem Stops.second (h : Stops (l * m) x) (hw : w ∈ l) : Stops m x := by
  rintro s hs ⟨u, y, hu, hy⟩
  refine h s hs ⟨w ++ u, y, Language.append_mem_mul hw hu, ?_⟩
  rw [List.append_assoc]
  exact Language.append_mem_mul hw hy

theorem Misses.first (h : Misses (l * m) x) (hw : w ∈ m) : Misses l x := by
  rintro s hs ⟨y, hy⟩
  exact h s hs ⟨y ++ w, Language.append_mem_mul hy hw⟩

theorem Misses.second (h : Misses (l * m) x) (hnil : [] ∈ l) : Misses m x := by
  refine h.mono fun u hu => ?_
  exact Language.mem_mul.2 ⟨[], hnil, u, hu, rfl⟩

theorem nil_mem_mul_iff : [] ∈ l * m ↔ [] ∈ l ∧ [] ∈ m := by
  rw [Language.mem_mul]
  constructor
  · rintro ⟨a, ha, b, hb, hab⟩
    obtain ⟨rfl, rfl⟩ := List.append_eq_nil_iff.1 hab
    exact ⟨ha, hb⟩
  · exact fun ⟨ha, hb⟩ => ⟨[], ha, [], hb, rfl⟩

end Mul

/-- The texts that are made of at least `n` texts of a language. -/
theorem mem_atLeast_iff :
    x ∈ l ^ n * KStar.kstar l ↔ ∃ pieces : List (List Char), x = pieces.flatten ∧
      n ≤ pieces.length ∧ ∀ y ∈ pieces, y ∈ l := by
  rw [Language.mem_mul]
  constructor
  · rintro ⟨a, ha, b, hb, rfl⟩
    obtain ⟨front, rfl, hlength, hfront⟩ := Language.mem_pow.1 ha
    obtain ⟨back, rfl, hback⟩ := Language.mem_kstar.1 hb
    refine ⟨front ++ back, List.flatten_append.symm, ?_, fun y hy => ?_⟩
    · rw [List.length_append, hlength]
      exact Nat.le_add_right n _
    · exact (List.mem_append.1 hy).elim (hfront y) (hback y)
  · rintro ⟨pieces, rfl, hlength, hpieces⟩
    refine ⟨(pieces.take n).flatten, Language.mem_pow.2 ⟨_, rfl, ?_, fun y hy => ?_⟩,
      (pieces.drop n).flatten, Language.mem_kstar.2 ⟨_, rfl, fun y hy => ?_⟩, ?_⟩
    · rw [List.length_take, Nat.min_eq_left hlength]
    · exact hpieces y (List.mem_of_mem_take hy)
    · exact hpieces y (List.mem_of_mem_drop hy)
    · rw [← List.flatten_append, List.take_append_drop]

section AtLeast

theorem append_mem_atLeast (hx : x ∈ l ^ n * KStar.kstar l) (hw : w ∈ l) :
    x ++ w ∈ l ^ n * KStar.kstar l := by
  obtain ⟨pieces, rfl, hlength, hpieces⟩ := mem_atLeast_iff.1 hx
  refine mem_atLeast_iff.2 ⟨pieces ++ [w], by simp, ?_, fun y hy => ?_⟩
  · rw [List.length_append]
    exact Nat.le_add_right_of_le hlength
  · rcases List.mem_append.1 hy with hy | hy
    · exact hpieces y hy
    · rw [List.mem_singleton.1 hy]
      exact hw

theorem Stops.item (h : Stops (l ^ n * KStar.kstar l) x) (hw : w ∈ l ^ n * KStar.kstar l) :
    Stops l x := by
  rintro s hs ⟨u, y, hu, hy⟩
  refine h s hs ⟨w ++ u, y, append_mem_atLeast hw hu, ?_⟩
  rw [List.append_assoc]
  exact append_mem_atLeast hw hy

/-- A text that goes on in no way is followed by no further item. -/
theorem Stops.misses_item (h : Stops (l ^ n * KStar.kstar l) x)
    (hw : w ∈ l ^ n * KStar.kstar l) : Misses l x := by
  rintro s hs ⟨y, hy⟩
  exact h s hs ⟨w, y, hw, append_mem_atLeast hw hy⟩

theorem Misses.item (h : Misses (l ^ n * KStar.kstar l) x) : Misses l x := by
  rintro s hs ⟨y, hy⟩
  refine h s hs ⟨y ++ (List.replicate n (s :: y)).flatten, mem_atLeast_iff.2
    ⟨(s :: y) :: List.replicate n (s :: y), rfl, by simp, fun z hz => ?_⟩⟩
  rw [← List.replicate_succ] at hz
  rw [List.eq_of_mem_replicate hz]
  exact hy

theorem nil_mem_atLeast_iff (hnil : [] ∉ l) : [] ∈ l ^ n * KStar.kstar l ↔ n = 0 := by
  rw [mem_atLeast_iff]
  constructor
  · rintro ⟨pieces, hflatten, hlength, hpieces⟩
    cases pieces with
    | nil => exact Nat.le_zero.1 hlength
    | cons y pieces =>
        obtain ⟨rfl, -⟩ := List.append_eq_nil_iff.1 hflatten.symm
        exact absurd (hpieces [] List.mem_cons_self) hnil
  · rintro rfl
    exact ⟨[], rfl, Nat.le_refl 0, fun _ h => nomatch h⟩

end AtLeast

end Languages

variable {σ : Type}

namespace Grammar

/-- The texts that a grammar without rules describes. -/
def language : Grammar σ → Language Char
  | .accept p => {w | ∃ s, p.accepts (some s) = true ∧ w = [s]}
  | .sequence a b => a.language * b.language
  | .choice a b => a.language + b.language
  | .repetition atLeast item => item.language ^ atLeast * KStar.kstar item.language
  | .option item => 1 + item.language
  | _ => 0

/-- A grammar of which one symbol of lookahead tells how to go on. -/
inductive IsLL1 : Grammar σ → Prop
  | accept {p : Predicate} (hsome : ∃ s, p.accepts (some s) = true)
      (hend : p.accepts none = false) : IsLL1 (.accept p)
  | sequence {a b : Grammar σ} (ha : a.IsLL1) (hb : b.IsLL1)
      (hdisjoint : Disjoint (extensions a.language) (firsts b.language)) : IsLL1 (.sequence a b)
  | choice {a b : Grammar σ} (ha : a.IsLL1) (hb : b.IsLL1) (hnil : [] ∉ a.language)
      (hdisjoint : Disjoint (firsts a.language) (firsts b.language)) : IsLL1 (.choice a b)
  | repetition {atLeast : Nat} {item : Grammar σ} (hitem : item.IsLL1) (hnil : [] ∉ item.language)
      (hdisjoint : Disjoint (extensions item.language) (firsts item.language)) :
      IsLL1 (.repetition atLeast item)
  | option {item : Grammar σ} (hitem : item.IsLL1) : IsLL1 (.option item)

section Symbol

variable {s t : Char} {u : List Char}

theorem mem_language_symbol_iff :
    u ∈ (accept (.symbol t) : Grammar σ).language ↔ u = [t] := by
  constructor
  · rintro ⟨s, hs, rfl⟩
    obtain rfl : s = t := by simpa [Predicate.accepts] using hs
    rfl
  · rintro rfl
    exact ⟨t, by simp [Predicate.accepts], rfl⟩

theorem eq_of_mem_firsts_symbol (h : s ∈ firsts (accept (.symbol t) : Grammar σ).language) :
    s = t := by
  obtain ⟨y, hy⟩ := h
  exact (List.cons.inj (mem_language_symbol_iff.1 hy)).1

theorem IsLL1.symbol (t : Char) : (Grammar.accept (.symbol t) : Grammar σ).IsLL1 :=
  .accept ⟨t, by simp [Predicate.accepts]⟩ rfl

end Symbol

theorem IsLL1.nonempty {g : Grammar σ} (hg : g.IsLL1) : ∃ w, w ∈ g.language := by
  induction hg with
  | @accept p hsome _ =>
      obtain ⟨s, hs⟩ := hsome
      exact ⟨[s], s, hs, rfl⟩
  | sequence _ _ _ iha ihb =>
      obtain ⟨u, hu⟩ := iha
      obtain ⟨w, hw⟩ := ihb
      exact ⟨u ++ w, Language.append_mem_mul hu hw⟩
  | choice _ _ _ _ iha _ =>
      obtain ⟨w, hw⟩ := iha
      exact ⟨w, .inl hw⟩
  | @repetition atLeast item _ _ _ ih =>
      obtain ⟨w, hw⟩ := ih
      refine ⟨_, mem_atLeast_iff.2 ⟨List.replicate atLeast w, rfl, by simp, fun y hy => ?_⟩⟩
      rw [List.eq_of_mem_replicate hy]
      exact hw
  | option _ _ => exact ⟨[], .inl rfl⟩

end Grammar

/-- A run of a grammar goes by the symbol that comes next. -/
structure Environment.Predicts (env : Environment σ) (g : Grammar σ) : Prop where
  takes : ∀ {w rest : List Char} {c : Config σ}, w ∈ g.language → Stops g.language rest →
    c.cursor.ahead = w ++ rest → env.Yields g c (c.take w).matched
  stays : ∀ {c : Config σ}, Misses g.language c.cursor.ahead → [] ∈ g.language →
    env.Yields g c c.matched
  refuses : ∀ {c : Config σ}, Misses g.language c.cursor.ahead → [] ∉ g.language →
    env.Yields g c c.mismatched

namespace Environment.Predicts

variable {env : Environment σ} {a b item : Grammar σ} {p : Predicate}

theorem accept (hend : p.accepts none = false) : env.Predicts (.accept p) where
  takes := by
    rintro _ rest c ⟨s, hs, rfl⟩ - hahead
    have hsymbol : c.cursor.symbol? = some s := congrArg List.head? hahead
    rw [← Config.takeSymbol_eq_take hahead]
    exact ⟨1, run_accept 0 (hsymbol ▸ hs)⟩
  stays := by
    rintro c - ⟨s, -, hs⟩
    cases hs
  refuses := by
    intro c hmisses _
    refine ⟨1, run_accept_of_rejected 0 fun haccepts => ?_⟩
    cases hsymbol : c.cursor.symbol? with
    | none =>
        rw [hsymbol, hend] at haccepts
        cases haccepts
    | some s =>
        rw [hsymbol] at haccepts
        exact hmisses s hsymbol ⟨[], s, haccepts, rfl⟩

theorem sequence (ha : env.Predicts a) (hb : env.Predicts b) (hnonempty : ∃ w, w ∈ b.language)
    (hdisjoint : Disjoint (extensions a.language) (firsts b.language)) :
    env.Predicts (.sequence a b) where
  takes := by
    intro w rest c hw hstops hahead
    obtain ⟨u, hu, v, hv, rfl⟩ := Language.mem_mul.1 hw
    rw [List.append_assoc] at hahead
    have hfirst : Stops a.language (v ++ rest) := by
      by_cases hempty : v = []
      · rw [hempty]
        exact Stops.first_of_nil hstops (hempty ▸ hv)
      · exact stops_of_disjoint hdisjoint hv hempty
    have hsecond := hb.takes hv (Stops.second hstops hu) (Config.ahead_take hahead)
    rw [Config.take_take hahead] at hsecond
    exact yields_sequence (ha.takes hu hfirst hahead) rfl hsecond
  stays := by
    intro c hmisses hnil
    obtain ⟨hanil, hbnil⟩ := nil_mem_mul_iff.1 hnil
    obtain ⟨w, hw⟩ := hnonempty
    exact yields_sequence (ha.stays (Misses.first hmisses hw) hanil) rfl
      (hb.stays (Misses.second hmisses hanil) hbnil)
  refuses := by
    intro c hmisses hnil
    obtain ⟨w, hw⟩ := hnonempty
    have hfirst := Misses.first hmisses hw
    by_cases hanil : [] ∈ a.language
    · have hbnil : [] ∉ b.language := fun hbnil => hnil (nil_mem_mul_iff.2 ⟨hanil, hbnil⟩)
      exact yields_sequence (ha.stays hfirst hanil) rfl
        (hb.refuses (Misses.second hmisses hanil) hbnil)
    · exact yields_sequence_of_not_matched (ha.refuses hfirst hanil) (by simp [Config.mismatched]) b

theorem choice (ha : env.Predicts a) (hb : env.Predicts b) (hanil : [] ∉ a.language)
    (hdisjoint : Disjoint (firsts a.language) (firsts b.language)) :
    env.Predicts (.choice a b) where
  takes := by
    intro w rest c hw hstops hahead
    rcases hw with hw | hw
    · exact yields_choice (ha.takes hw (hstops.mono le_self_add) hahead)
        (by simp [Config.matched]) b
    · have hmisses : Misses a.language c.cursor.ahead := by
        rw [hahead]
        by_cases hempty : w = []
        · subst hempty
          exact (Stops.misses hstops (.inr hw)).mono le_self_add
        · exact misses_of_disjoint hdisjoint hw hempty
      exact yields_choice_of_mismatched (ha.refuses hmisses hanil) rfl rfl
        (hb.takes hw (hstops.mono le_add_self) hahead)
  stays := by
    intro c hmisses hnil
    have hbnil : [] ∈ b.language := hnil.resolve_left hanil
    exact yields_choice_of_mismatched (ha.refuses (hmisses.mono le_self_add) hanil) rfl rfl
      (hb.stays (hmisses.mono le_add_self) hbnil)
  refuses := by
    intro c hmisses hnil
    have hbnil : [] ∉ b.language := fun hbnil => hnil (.inr hbnil)
    exact yields_choice_of_mismatched (ha.refuses (hmisses.mono le_self_add) hanil) rfl rfl
      (hb.refuses (hmisses.mono le_add_self) hbnil)

/-- Iterations take the pieces one by one, each of which begins where the one before it ends. -/
theorem iterates (hitem : env.Predicts item) (hnil : [] ∉ item.language)
    (hdisjoint : Disjoint (extensions item.language) (firsts item.language))
    {pieces : List (List Char)} (hpieces : ∀ y ∈ pieces, y ∈ item.language) {rest : List Char}
    (hmisses : Misses item.language rest) (hstops : Stops item.language rest) {owed : Nat}
    (howed : owed ≤ pieces.length) {c : Config σ}
    (hahead : c.cursor.ahead = pieces.flatten ++ rest) :
    env.Yields (.repetition owed item) c (c.take pieces.flatten).matched := by
  induction pieces generalizing owed c with
  | nil =>
      obtain rfl := Nat.le_zero.1 howed
      rw [List.flatten_nil, Config.take_nil]
      rw [List.flatten_nil, List.nil_append] at hahead
      exact yields_repetition_of_mismatched (hitem.refuses (hahead ▸ hmisses) hnil) rfl rfl
  | cons w pieces ih =>
      obtain ⟨hw, hrest⟩ := List.forall_mem_cons.1 hpieces
      rw [List.flatten_cons, List.append_assoc] at hahead
      have hne : w ≠ [] := fun hempty => hnil (hempty ▸ hw)
      have hgoesOn : Stops item.language (pieces.flatten ++ rest) := by
        cases pieces with
        | nil => exact hstops
        | cons w' pieces =>
            have hw' : w' ∈ item.language := hrest w' List.mem_cons_self
            rw [List.flatten_cons, List.append_assoc]
            exact stops_of_disjoint hdisjoint hw' fun hempty => hnil (hempty ▸ hw')
      have hmoved : (c.take w).cursor.offset ≠ c.cursor.offset :=
        Config.offset_take_ne hne ⟨_, hahead.symm⟩
      have howed' : owed - 1 ≤ pieces.length := Nat.sub_le_of_le_add howed
      have hlater := ih hrest howed' (Config.ahead_take hahead)
      rw [Config.take_take hahead] at hlater
      exact yields_repetition_of_moved (hitem.takes hw hgoesOn hahead) rfl hmoved hlater

/-- Where no item begins there is no iteration. -/
theorem iterates_not (hitem : env.Predicts item) (hnil : [] ∉ item.language) (owed : Nat)
    {c : Config σ} (hmisses : Misses item.language c.cursor.ahead) :
    env.Yields (.repetition owed item) c (if owed = 0 then c.matched else c.mismatched) := by
  have hyields : env.Yields (.repetition owed item) c _ :=
    yields_repetition_of_mismatched (hitem.refuses hmisses hnil) rfl rfl
  split
  · rwa [if_pos ‹_›] at hyields
  · rwa [if_neg ‹_›] at hyields

theorem repetition {atLeast : Nat} (hitem : env.Predicts item) (hnil : [] ∉ item.language)
    (hdisjoint : Disjoint (extensions item.language) (firsts item.language)) :
    env.Predicts (.repetition atLeast item) where
  takes := by
    intro w rest c hw hstops hahead
    obtain ⟨pieces, rfl, hlength, hpieces⟩ := mem_atLeast_iff.1 hw
    exact hitem.iterates hnil hdisjoint hpieces (Stops.misses_item hstops hw)
      (Stops.item hstops hw) hlength hahead
  stays := by
    intro c hmisses hempty
    have hyields := hitem.iterates_not hnil atLeast (Misses.item hmisses)
    rwa [if_pos ((nil_mem_atLeast_iff hnil).1 hempty)] at hyields
  refuses := by
    intro c hmisses hempty
    have hyields := hitem.iterates_not hnil atLeast (Misses.item hmisses)
    rwa [if_neg fun hzero => hempty ((nil_mem_atLeast_iff hnil).2 hzero)] at hyields

theorem option (hitem : env.Predicts item) : env.Predicts (.option item) where
  takes := by
    intro w rest c hw hstops hahead
    by_cases hw' : w ∈ item.language
    · exact yields_option (hitem.takes hw' (hstops.mono le_add_self) hahead)
        (by simp [Config.matched])
    · obtain rfl : w = [] := (Language.mem_one w).1 (hw.resolve_right hw')
      have hmisses : Misses item.language c.cursor.ahead := by
        rw [hahead]
        exact (Stops.misses hstops hw).mono le_add_self
      rw [Config.take_nil]
      exact yields_option_of_mismatched (hitem.refuses hmisses hw') rfl rfl
  stays := by
    intro c hmisses _
    have hitem' : Misses item.language c.cursor.ahead := hmisses.mono le_add_self
    by_cases hnil : [] ∈ item.language
    · exact yields_option (hitem.stays hitem' hnil) (by simp [Config.matched])
    · exact yields_option_of_mismatched (hitem.refuses hitem' hnil) rfl rfl
  refuses := by
    intro c _ hnil
    exact absurd (.inl rfl) hnil

theorem of_isLL1 {g : Grammar σ} (hg : g.IsLL1) : env.Predicts g := by
  induction hg with
  | accept _ hend => exact .accept hend
  | sequence _ hb hdisjoint iha ihb => exact iha.sequence ihb hb.nonempty hdisjoint
  | choice _ _ hnil hdisjoint iha ihb => exact iha.choice ihb hnil hdisjoint
  | repetition _ hnil hdisjoint ih => exact ih.repetition hnil hdisjoint
  | option _ ih => exact ih.option

end Environment.Predicts

namespace Environment

variable (env : Environment σ) {g : Grammar σ}

/-- A grammar with one symbol of lookahead needs no attempt. Where a text of its language comes next
that does not go on in the language, it takes exactly this text; where no text of its language
begins with the next symbol, it stays in place, and matches if the empty text is in the language. -/
theorem takes_language_of_isLL1 (hg : g.IsLL1) (c : Config σ) (text : String)
    (htext : c.slot = some (.text text)) :
    (∀ w ∈ g.language, ∀ x, (∀ s ∈ x.head?, s ∉ extensions g.language) →
      c.cursor.ahead = w ++ x → ∃ o, env.Yields g c o ∧ o.verdict = .matched ∧
        o.config.cursor.offset = c.cursor.offset + Text.byteLength w ∧ o.config.cursor.ahead = x ∧
          o.config.slot = some (.text (text ++ String.ofList w))) ∧
      ((∀ s ∈ c.cursor.symbol?, s ∉ firsts g.language) → ∃ o, env.Yields g c o ∧ o.config = c ∧
        ([] ∈ g.language → o.verdict = .matched) ∧
        ([] ∉ g.language → o.verdict = .mismatched)) := by
  have hpredicts : env.Predicts g := .of_isLL1 hg
  constructor
  · intro w hw x hstops hahead
    refine ⟨_, hpredicts.takes hw hstops hahead, rfl, ?_, Config.ahead_take hahead, ?_⟩
    · change (c.take w).cursor.offset = _
      rw [Config.take_of_ahead hahead]
      exact Position.offset_pastAll _ w
    · exact congrArg (Option.map _) htext
  · intro hmisses
    by_cases hnil : [] ∈ g.language
    · exact ⟨_, hpredicts.stays hmisses hnil, rfl, fun _ => rfl, fun h => absurd hnil h⟩
    · exact ⟨_, hpredicts.refuses hmisses hnil, rfl, fun h => absurd h hnil, fun _ => rfl⟩

/-- As many of one symbol as there are, and then one of two others. -/
theorem takes_language_of_isLL1_branch :
    let branch : Grammar Nat := .choice (.accept (.symbol 'b')) (.accept (.symbol 'c'))
    let g : Grammar Nat := .sequence (.many (.accept (.symbol 'a'))) branch
    let env : Environment Nat := ⟨⟨.empty, []⟩, .off⟩
    let w := ['a', 'a', 'c']
    let c : Config Nat := ⟨.ofInput (w ++ ['!']), some (.text "v"), 0⟩
    g.IsLL1 ∧ w ∈ g.language ∧ '!' ∉ extensions g.language ∧ ∃ o, env.Yields g c o ∧
      o.verdict = .matched ∧ o.config.cursor.offset = 3 ∧ o.config.slot = some (.text "vaac") := by
  intro branch g env w c
  have hmany : ∀ u ∈ (Grammar.many (.accept (.symbol 'a')) : Grammar Nat).language,
      ∀ s ∈ u, s = 'a' := by
    intro u hu s hs
    obtain ⟨pieces, rfl, -, hpieces⟩ := mem_atLeast_iff.1 hu
    obtain ⟨piece, hpiece, hs⟩ := List.mem_flatten.1 hs
    rw [Grammar.mem_language_symbol_iff.1 (hpieces piece hpiece)] at hs
    exact List.mem_singleton.1 hs
  have hbranch : ∀ u ∈ branch.language, u = ['b'] ∨ u = ['c'] :=
    fun u hu => hu.imp Grammar.mem_language_symbol_iff.1 Grammar.mem_language_symbol_iff.1
  have hg : g.IsLL1 := by
    refine .sequence (.repetition (Grammar.IsLL1.symbol 'a') ?_ ?_)
      (.choice (Grammar.IsLL1.symbol 'b') (Grammar.IsLL1.symbol 'c') ?_ ?_) ?_
    · exact fun hnil => nomatch Grammar.mem_language_symbol_iff.1 hnil
    · refine Set.disjoint_left.2 fun s hs _ => ?_
      obtain ⟨u, y, hu, hy⟩ := hs
      rw [Grammar.mem_language_symbol_iff.1 hu] at hy
      exact nomatch Grammar.mem_language_symbol_iff.1 hy
    · exact fun hnil => nomatch Grammar.mem_language_symbol_iff.1 hnil
    · refine Set.disjoint_left.2 fun s hs hs' => ?_
      have hb := Grammar.eq_of_mem_firsts_symbol hs
      have hc := Grammar.eq_of_mem_firsts_symbol hs'
      exact absurd (hb.symm.trans hc) (by decide)
    · refine Set.disjoint_left.2 fun s hs hs' => ?_
      have hne : s ≠ 'a' := by
        obtain ⟨y, hy⟩ := hs'
        rintro rfl
        rcases hbranch _ hy with hy | hy <;> cases hy
      exact not_mem_extensions hmany hne hs
  have hw : w ∈ g.language := by
    refine Language.mem_mul.2 ⟨['a', 'a'], mem_atLeast_iff.2 ⟨[['a'], ['a']], rfl, by decide, ?_⟩,
      ['c'], .inr (Grammar.mem_language_symbol_iff.2 rfl), rfl⟩
    intro y hy
    rw [List.eq_of_mem_replicate (n := 2) hy]
    exact Grammar.mem_language_symbol_iff.2 rfl
  have hstops : '!' ∉ extensions g.language := by
    refine not_mem_extensions (P := (· ∈ ['a', 'b', 'c'])) (fun u hu s hs => ?_) (by decide)
    obtain ⟨x, hx, y, hy, rfl⟩ := Language.mem_mul.1 hu
    rcases List.mem_append.1 hs with hs | hs
    · rw [hmany x hx s hs]
      decide
    · rcases hbranch y hy with rfl | rfl
      · rw [List.mem_singleton.1 hs]
        decide
      · rw [List.mem_singleton.1 hs]
        decide
  obtain ⟨o, ho, hverdict, hoffset, -, hslot⟩ :=
    (env.takes_language_of_isLL1 hg c "v" rfl).1 w hw ['!'] (by simpa using hstops) rfl
  exact ⟨hg, hw, hstops, o, ho, hverdict, hoffset, hslot⟩

end Environment

end ParserAlgebra
