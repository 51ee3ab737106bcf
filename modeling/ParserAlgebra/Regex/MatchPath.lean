import ParserAlgebra.Regex.Match
import ParserAlgebra.Regex.Matcher

/-!
# The search follows paths

Carried out for all ways at once, a program finds a text that it takes: what has been reached behind
a text has been reached along paths that take the text. So the search makes the program a matcher.
-/

namespace ParserAlgebra.Regex.Program

variable {p : Program}

section Explore

variable {P : Nat → Prop} {holds : Assertion → Bool}
  (hfork : ∀ i ways, p.instructions[i]? = some (.fork ways) → P i → ∀ j ∈ ways, P j)
  (hcheck : ∀ i a j, p.instructions[i]? = some (.check a j) → holds a = true → P i → P j)

include hfork hcheck

/-- What is handed on along forks and assertions that hold is true of all that is explored. -/
theorem forall_explore (seen : Array Bool) (found ways : List Nat) (hfound : ∀ i ∈ found, P i)
    (hways : ∀ i ∈ ways, P i) : ∀ i ∈ p.explore holds seen found ways, P i := by
  fun_induction p.explore holds seen found ways with
  | case1 seen found => exact hfound
  | case2 seen found i ways h hseen ih =>
      exact ih hfound fun j hj => hways j (List.mem_cons_of_mem i hj)
  | case3 seen found i ways h hseen more hi ih =>
      refine ih hfound fun j hj => ?_
      rcases List.mem_append.1 hj with hmore | hmem
      · exact hfork i more hi (hways i List.mem_cons_self) j hmore
      · exact hways j (List.mem_cons_of_mem i hmem)
  | case4 seen found i ways h hseen a next hi ih =>
      have hcons := List.forall_mem_cons.1 hways
      refine ih (List.forall_mem_cons.2 ⟨hcons.1, hfound⟩) ?_
      split
      · exact List.forall_mem_cons.2 ⟨hcheck i a next hi ‹_› hcons.1, hcons.2⟩
      · exact hcons.2
  | case5 seen found i ways h hseen hnofork hnocheck ih =>
      have hcons := List.forall_mem_cons.1 hways
      exact ih (List.forall_mem_cons.2 ⟨hcons.1, hfound⟩) hcons.2
  | case6 seen found i ways h ih =>
      exact ih hfound fun j hj => hways j (List.mem_cons_of_mem i hj)

theorem forall_reach {starts : List Nat} (hstarts : ∀ i ∈ starts, P i) :
    ∀ i ∈ p.reach holds starts, P i := by
  intro i hi
  have hnone : ∀ i ∈ ([] : List Nat), P i := fun _ h => nomatch h
  exact forall_explore hfork hcheck _ _ _ hnone hstarts i (List.mem_reverse.1 hi)

end Explore

/-- After `taken` the paths of a program have come to an instruction: whatever is taken from it on
is taken, behind `taken`, from the start on. -/
def ComesTo (p : Program) (first : Option Char) (taken : List Char) (before : Option Char)
    (ahead : List Char) (i : Nat) : Prop :=
  ∀ text after, ahead = text ++ after → p.Takes before i text after →
    p.Takes first p.start (taken ++ text) after

section Search

variable {first before : Option Char} {taken ahead : List Char}

theorem comesTo_reach {holds : Assertion → Bool}
    (hholds : ∀ a, holds a = true → a.holds before ahead.head? = true) {starts : List Nat}
    (hstarts : ∀ i ∈ starts, p.ComesTo first taken before ahead i) :
    ∀ i ∈ p.reach holds starts, p.ComesTo first taken before ahead i := by
  refine forall_reach ?_ ?_ hstarts
  · intro i ways hi hcomes j hj text after hahead htakes
    exact hcomes text after hahead (.fork hi hj htakes)
  · intro i a j hi ha hcomes text after hahead htakes
    exact hcomes text after hahead (.check hi (hahead ▸ hholds a ha) htakes)

theorem comesTo_arrive (settlement : Settlement) {starts : List Nat}
    (hstarts : ∀ i ∈ starts, p.ComesTo first taken before ahead i) :
    ∀ i ∈ p.arrive settlement before ahead.head? starts, p.ComesTo first taken before ahead i := by
  cases settlement with
  | atOnce => exact comesTo_reach (fun _ ha => ha) hstarts
  | late => exact comesTo_reach (fun _ ha => (Bool.and_eq_true_iff.1 ha).2) hstarts

theorem comesTo_settle (settlement : Settlement) {reached : List Nat}
    (hreached : ∀ i ∈ reached, p.ComesTo first taken before ahead i) :
    ∀ i ∈ p.settle settlement before ahead.head? reached,
      p.ComesTo first taken before ahead i := by
  unfold settle
  split
  · exact comesTo_reach (fun _ ha => ha) hreached
  · exact hreached

theorem ComesTo.takes_of_accepts {i : Nat} (h : p.ComesTo first taken before ahead i)
    (hi : p.accepts i = true) : p.Takes first p.start taken ahead := by
  have haccept : p.instructions[i]? = some .accept := by
    unfold accepts at hi
    split at hi
    · assumption
    · cases hi
  have htakes := h [] ahead rfl (.accept haccept)
  rwa [List.append_nil] at htakes

theorem ComesTo.onward {i j : Nat} {s : Char} (h : p.ComesTo first taken before (s :: ahead) i)
    (hj : p.onward? s i = some j) : p.ComesTo first (taken ++ [s]) (some s) ahead j := by
  unfold onward? at hj
  split at hj
  · split at hj
    · obtain rfl := Option.some.inj hj
      intro text after hahead htakes
      have hpath := h (s :: text) after (by rw [hahead]; rfl) (.take ‹_› ‹_› htakes)
      rwa [List.append_assoc]
    · cases hj
  · cases hj

/-- A length is that of a beginning of a text that a program takes. -/
def TakesLength (p : Program) (first : Option Char) (whole : List Char) (n : Nat) : Prop :=
  p.Takes first p.start (whole.take n) (whole.drop n)

theorem takesLength_of_any {whole : List Char} (hwhole : whole = taken ++ ahead)
    {reached : List Nat} (hreached : ∀ i ∈ reached, p.ComesTo first taken before ahead i)
    {best : Option Nat} (hbest : ∀ n ∈ best, p.TakesLength first whole n) :
    ∀ n ∈ (if reached.any p.accepts then some taken.length else best),
      p.TakesLength first whole n := by
  intro n hn
  split at hn
  · obtain ⟨i, hi, haccepts⟩ := List.any_eq_true.1 ‹_›
    obtain rfl := Option.some.inj hn
    have htakes := (hreached i hi).takes_of_accepts haccepts
    rwa [TakesLength, hwhole, List.take_left, List.drop_left]
  · exact hbest n hn

/-- The search finds lengths of texts that are taken. -/
theorem takesLength_of_lengthAhead (settlement : Settlement) (isForeign : Char → Bool)
    {whole : List Char} (hwhole : whole = taken ++ ahead) {starts : List Nat}
    (hstarts : ∀ i ∈ starts, p.ComesTo first taken before ahead i) {best : Option Nat}
    (hbest : ∀ n ∈ best, p.TakesLength first whole n) {n : Nat}
    (h : p.lengthAhead settlement isForeign starts before taken.length best ahead =
      some (some n)) : p.TakesLength first whole n := by
  induction ahead generalizing taken before starts best with
  | nil =>
      have hreached := comesTo_settle settlement (comesTo_arrive settlement hstarts)
      rw [lengthAhead] at h
      dsimp only at h
      split at h
      · exact hbest n (Option.some.inj h)
      · split at h
        · cases h
        · exact takesLength_of_any hwhole hreached hbest n (Option.some.inj h)
  | cons s ahead ih =>
      have hreached := comesTo_settle settlement (comesTo_arrive settlement hstarts)
      rw [lengthAhead] at h
      dsimp only at h
      split at h
      · exact hbest n (Option.some.inj h)
      · split at h
        · cases h
        · have hlength : (taken ++ [s]).length = taken.length + 1 := List.length_append
          rw [← hlength] at h
          have hwhole' : whole = (taken ++ [s]) ++ ahead := by simp [hwhole]
          refine ih hwhole' ?_ (takesLength_of_any hwhole hreached hbest) h
          intro j hj
          obtain ⟨i, hi, honward⟩ := List.mem_filterMap.1 hj
          exact (hreached i ((List.takeWhile_sublist _).subset hi)).onward honward

end Search

/-- What the search finds is a text that the program takes. -/
theorem takes_of_matchAhead? {before : Option Char} {ahead text : List Char}
    (h : p.matchAhead? before ahead = some text) :
    ∃ after, ahead = text ++ after ∧ p.Takes before p.start text after := by
  have hstart : ∀ i ∈ [p.start], p.ComesTo before [] before ahead i := by
    intro i hi text after _ htakes
    obtain rfl := List.mem_singleton.1 hi
    exact htakes
  have hbest : ∀ n ∈ (none : Option Nat), p.TakesLength before ahead n := fun _ hn => nomatch hn
  have hsearch (settlement : Settlement) (isForeign : Char → Bool) (n : Nat)
      (hn : p.lengthAhead settlement isForeign [p.start] before 0 none ahead = some (some n)) :
      p.TakesLength before ahead n :=
    takesLength_of_lengthAhead settlement isForeign rfl hstart hbest hn
  obtain ⟨n, hn, rfl⟩ := Option.map_eq_some_iff.1 h
  refine ⟨ahead.drop n, (List.take_append_drop n ahead).symm, ?_⟩
  change p.TakesLength before ahead n
  unfold matchLength? at hn
  dsimp only at hn
  split at hn
  · rename_i length hlate
    obtain rfl := hn
    split at hlate
    · cases hlate
    · exact hsearch _ _ n hlate
  · exact hsearch _ _ n (Option.join_eq_some_iff.1 hn)

/-- The matcher that carries out a program. -/
def matcher (p : Program) : Matcher where
  program := p
  matchAhead? := p.matchAhead?
  takes_of_matchAhead? := takes_of_matchAhead?

end ParserAlgebra.Regex.Program
