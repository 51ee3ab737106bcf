import ParserAlgebra.Regex.Basic

/-!
# Expressions in simplified form

Expressions are put together from parts by the functions of this module, which simplify as they go:
chains and alternations do not nest, neighbouring texts are one text, branches of one symbol each
are a set, and what all branches begin with is taken out in front of them. Simplification keeps the
texts that match, but taking out a beginning can change which of them is preferred, so the
simplified form belongs to what an expression means.
-/

namespace ParserAlgebra.Regex

/-- The number of parts of an expression; a chain or an alternation counts twice. -/
def weight : Regex → Nat
  | .repetition _ _ _ r | .group _ r => r.weight + 1
  | .concat rs | .alternation rs => weightList rs + 2
  | _ => 1
where
  weightList : List Regex → Nat
    | [] => 0
    | r :: rs => r.weight + weightList rs

open weight (weightList)

theorem weight_pos (r : Regex) : 0 < r.weight := by
  cases r <;> simp [weight]

@[simp] theorem weightList_append (rs ss : List Regex) :
    weightList (rs ++ ss) = weightList rs + weightList ss := by
  induction rs with
  | nil => simp [weightList]
  | cons r rs ih => simp [weightList, ih, Nat.add_assoc]

theorem weightList_flatMap_le {f : Regex → List Regex} (hf : ∀ r, weightList (f r) ≤ r.weight)
    (rs : List Regex) : weightList (rs.flatMap f) ≤ weightList rs := by
  induction rs with
  | nil => simp [weightList]
  | cons r rs ih =>
    have := hf r
    simp only [List.flatMap_cons, weightList_append, weightList]
    omega

theorem weightList_drop_le (n : Nat) (rs : List Regex) :
    weightList (rs.drop n) ≤ weightList rs := by
  have h := weightList_append (rs.take n) (rs.drop n)
  rw [List.take_append_drop] at h
  omega

/-- The expression for one symbol of a set. -/
def ofSet (s : SymbolSet) : Regex :=
  match s.single? with
  | some c => .literal [c]
  | none => .symbols s

/-- What an expression contributes to a chain that it is part of. -/
def chainItems : Regex → List Regex
  | .empty => []
  | .concat rs => rs
  | r => [r]

/-- Puts an expression in front of a chain; a text joins a text that follows it. -/
def prepend : Regex → List Regex → List Regex
  | .literal s, .literal t :: rs => .literal (s ++ t) :: rs
  | r, rs => r :: rs

/-- The expression for one thing after another. -/
def ofItems (items : List Regex) : Regex :=
  match (items.flatMap chainItems).foldr prepend [] with
  | [] => .empty
  | [r] => r
  | rs => .concat rs

theorem weightList_chainItems_le (r : Regex) : weightList r.chainItems ≤ r.weight := by
  cases r <;> simp [chainItems, weight, weightList]

theorem weightList_prepend_le (r : Regex) (rs : List Regex) :
    weightList (prepend r rs) ≤ r.weight + weightList rs := by
  fun_cases prepend r rs <;> simp [weight, weightList]

theorem weightList_foldr_prepend_le (rs : List Regex) :
    weightList (rs.foldr prepend []) ≤ weightList rs := by
  induction rs with
  | nil => simp [weightList]
  | cons r rs ih =>
    have := weightList_prepend_le r (rs.foldr prepend [])
    simp only [List.foldr_cons, weightList]
    omega

theorem weight_ofItems_le (rs : List Regex) : (ofItems rs).weight ≤ weightList rs + 2 := by
  have h := Nat.le_trans (weightList_foldr_prepend_le (rs.flatMap chainItems))
    (weightList_flatMap_le weightList_chainItems_le rs)
  unfold ofItems
  split
  case h_1 => simp [weight]
  case h_2 r hr =>
    rw [hr] at h
    simp only [weightList] at h
    omega
  case h_3 => exact Nat.add_le_add_right h 2

/-- Taking at least one item from the front of a chain makes it lighter. -/
theorem weight_ofItems_drop_lt {n : Nat} (hn : n ≠ 0) (rs : List Regex) :
    (ofItems (rs.drop n)).weight < weightList rs + 2 := by
  cases rs with
  | nil => simp [ofItems, weight, weightList]
  | cons r rs =>
    obtain ⟨k, rfl⟩ := Nat.exists_eq_succ_of_ne_zero hn
    have h := weight_ofItems_le (rs.drop k)
    have hdrop := weightList_drop_le k rs
    have hr := r.weight_pos
    simp only [List.drop_succ_cons, weightList]
    omega

/-- What an expression contributes to an alternation that it is part of. -/
def branchList : Regex → List Regex
  | .alternation rs => rs
  | r => [r]

theorem weightList_branchList_le (r : Regex) : weightList r.branchList ≤ r.weight := by
  cases r <;> simp [branchList, weight, weightList]

/-- The symbol that an expression stands for, if it stands for one symbol. -/
def symbol? : Regex → Option Char
  | .literal [c] => some c
  | _ => none

/-- The set that an expression stands for, if it stands for one symbol of a set. -/
def set? : Regex → Option SymbolSet
  | .symbols s => some s
  | _ => none

def items? : Regex → Option (List Regex)
  | .concat rs => some rs
  | _ => none

/-- The longest beginning that two chains share. -/
def commonPrefix : List Regex → List Regex → List Regex
  | r :: rs, s :: ss => if same r s then r :: commonPrefix rs ss else []
  | _, _ => []

/-- What follows a shared beginning in each of some chains. -/
def suffixes (shared : List Regex) (chains : List (List Regex)) : List Regex :=
  chains.map fun rs => ofItems (rs.drop shared.length)

theorem weightList_suffixes_lt {shared : List Regex} (hshared : shared ≠ []) {rs : List Regex}
    {chain : List Regex} {chains : List (List Regex)}
    (h : rs.mapM items? = some (chain :: chains)) :
    weightList (suffixes shared (chain :: chains)) < weightList rs := by
  have hlen : shared.length ≠ 0 := by simpa using hshared
  suffices H : ∀ (chains : List (List Regex)) (rs : List Regex), rs.mapM items? = some chains →
      weightList (suffixes shared chains) + chains.length ≤ weightList rs by
    have := H _ _ h
    simp only [List.length_cons] at this
    omega
  intro chains rs
  induction rs generalizing chains with
  | nil =>
    intro h
    obtain rfl : chains = [] := by simpa [eq_comm] using h
    simp [suffixes, weightList]
  | cons r rs ih =>
    intro h
    cases r with
    | concat items =>
      simp only [List.mapM_cons, items?, bind, Option.bind_some, Option.bind_eq_some_iff, pure,
        Option.some.injEq] at h
      obtain ⟨rest, hrest, rfl⟩ := h
      have h₁ := ih rest hrest
      have h₂ := weight_ofItems_drop_lt hlen items
      simp only [suffixes, List.map_cons, weightList, weight, List.length_cons] at h₁ ⊢
      omega
    | _ => simp [items?] at h

/-- The expression for one of several things, the earlier ones preferred. -/
def ofBranches (branches : List Regex) : Regex :=
  match _hflat : branches.flatMap branchList with
  | [] => .symbols ∅
  | [r] => r
  | rs =>
    match rs.mapM symbol?, rs.mapM set? with
    | some cs, _ => ofSet (.ofList cs)
    | _, some sets => ofSet (sets.foldl (· ∪ ·) ∅)
    | _, _ =>
      match _hrs : rs.mapM items? with
      | some (chain :: chains) =>
        let shared := chains.foldl commonPrefix chain
        if _hshared : shared = [] then .alternation rs
        else ofItems (shared ++ [ofBranches (suffixes shared (chain :: chains))])
      | _ => .alternation rs
termination_by weightList branches
decreasing_by
  have h := weightList_flatMap_le weightList_branchList_le branches
  rw [_hflat] at h
  exact Nat.lt_of_lt_of_le (weightList_suffixes_lt _hshared _hrs) h

/-- The expression for a thing several times. What takes no symbol is asked for at most once. -/
def ofRepetition (greedy : Bool) (least : Nat) (most : Option Nat) (r : Regex) : Regex :=
  let (least, most) :=
    if r.mostLength = some 0 then (min least 1, some (min (most.getD 1) 1)) else (least, most)
  match least, most with
  | 0, some 0 => .empty
  | 1, some 1 => r
  | least, most => .repetition greedy least most r

end ParserAlgebra.Regex
