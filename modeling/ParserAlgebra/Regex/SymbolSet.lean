import ParserAlgebra.Unicode.Folding
import ParserAlgebra.Unicode.Ranges

/-!
# Sets of symbols

A set of symbols is kept as the ranks at which membership changes on the way through all symbols in
order. Ranks leave no gap at code points that are no symbols, so each set is written in one way
only, and equal sets are equal lists. The main statement, `contains_combine`, says that the
operations on sets decide membership symbol by symbol.
-/

namespace ParserAlgebra

def symbolCount : Nat :=
  0x10F800

/-- The place of a symbol among all symbols. The code points that are no symbols are not counted. -/
def symbolRank (c : Char) : Nat :=
  if c.toNat < 0xD800 then c.toNat else c.toNat - 0x800

def symbolAt (rank : Nat) : Char :=
  Char.ofNat (if rank < 0xD800 then rank else rank + 0x800)

theorem symbolRank_lt (c : Char) : symbolRank c < symbolCount := by
  have h : c.toNat < 0x110000 := by
    rcases c.valid with h | ⟨_, h⟩ <;> simp only [Char.toNat] <;> omega
  grind [symbolRank, symbolCount]

/-- A set of symbols by the ranks at which membership changes. -/
structure SymbolSet where
  changes : List Nat
  increasing : changes.Pairwise (· < ·)
  bounded : ∀ x ∈ changes, x < symbolCount
  deriving DecidableEq

namespace SymbolSet

/-- Whether a rank lies behind an odd number of changes. -/
def covers : List Nat → Nat → Bool
  | [], _ => false
  | x :: xs, n => if n < x then false else !covers xs n

def contains (s : SymbolSet) (c : Char) : Bool :=
  covers s.changes (symbolRank c)

theorem covers_cons_of_lt {x n : Nat} (xs : List Nat) (h : n < x) :
    covers (x :: xs) n = false := by
  simp [covers, h]

theorem covers_cons_of_le {x n : Nat} (xs : List Nat) (h : x ≤ n) :
    covers (x :: xs) n = !covers xs n := by
  simp [covers, Nat.not_lt.2 h]

theorem covers_of_lt {xs : List Nat} {n : Nat} (h : ∀ x ∈ xs, n < x) : covers xs n = false := by
  cases xs with
  | nil => rfl
  | cons x xs => simp [covers, h x (by simp)]

/-- Puts a rank in front of changes if membership changes there. -/
def changeIf (changed : Bool) (x : Nat) (xs : List Nat) : List Nat :=
  if changed then x :: xs else xs

/-- The changes of a combination of two sets, where `l` and `r` are the memberships in front of the
changes that are left. -/
def combineChanges (op : Bool → Bool → Bool) (l r : Bool) : List Nat → List Nat → List Nat
  | [], [] => []
  | x :: xs, [] => changeIf (op l r != op (!l) r) x (combineChanges op (!l) r xs [])
  | [], y :: ys => changeIf (op l r != op l (!r)) y (combineChanges op l (!r) [] ys)
  | x :: xs, y :: ys =>
    if x < y then
      changeIf (op l r != op (!l) r) x (combineChanges op (!l) r xs (y :: ys))
    else if y < x then
      changeIf (op l r != op l (!r)) y (combineChanges op l (!r) (x :: xs) ys)
    else
      changeIf (op l r != op (!l) (!r)) x (combineChanges op (!l) (!r) xs ys)
termination_by xs ys => xs.length + ys.length

theorem mem_changeIf {b : Bool} {x z : Nat} {xs : List Nat} (h : z ∈ changeIf b x xs) :
    z = x ∨ z ∈ xs := by
  cases b <;> simp_all [changeIf]

theorem mem_combineChanges {op : Bool → Bool → Bool} {l r : Bool} {xs ys : List Nat} {z : Nat}
    (h : z ∈ combineChanges op l r xs ys) : z ∈ xs ∨ z ∈ ys := by
  fun_induction combineChanges op l r xs ys <;> grind [mem_changeIf]

theorem pairwise_changeIf {b : Bool} {x : Nat} {xs : List Nat} (hxs : xs.Pairwise (· < ·))
    (hx : ∀ z ∈ xs, x < z) : (changeIf b x xs).Pairwise (· < ·) := by
  cases b <;> simp_all [changeIf]

theorem pairwise_combineChanges {op : Bool → Bool → Bool} {l r : Bool} {xs ys : List Nat}
    (hxs : xs.Pairwise (· < ·)) (hys : ys.Pairwise (· < ·)) :
    (combineChanges op l r xs ys).Pairwise (· < ·) := by
  fun_induction combineChanges op l r xs ys with
  | case1 => exact .nil
  | _ =>
    exact pairwise_changeIf (by grind [List.pairwise_cons])
      fun z hz => by grind [List.pairwise_cons, mem_combineChanges hz]

/-- One change settled: in front of it nothing is covered, and behind it the memberships are those
after the change. -/
theorem covers_changeIf_bne {p q a : Bool} {x n : Nat} {xs : List Nat} (hx : ∀ z ∈ xs, x < z)
    (h : covers xs n = (q != a)) :
    covers (changeIf (p != q) x xs) n = if x ≤ n then p != a else false := by
  have hxs (hn : n < x) : covers xs n = false :=
    covers_of_lt fun z hz => Nat.lt_trans hn (hx z hz)
  split
  case isTrue hn => cases p <;> cases q <;> simp_all [changeIf, covers_cons_of_le]
  case isFalse hn => cases p <;> cases q <;> simp_all [changeIf, covers_cons_of_lt]

theorem bne_covers_of_lt {b : Bool} {xs : List Nat} {n : Nat} (h : ∀ x ∈ xs, n < x) :
    (b != covers xs n) = b := by
  simp [covers_of_lt h]

theorem bne_covers_cons {b : Bool} {x n : Nat} (xs : List Nat) (h : x ≤ n) :
    (b != covers (x :: xs) n) = ((!b) != covers xs n) := by
  cases b <;> simp [covers_cons_of_le xs h]

theorem covers_combineChanges {op : Bool → Bool → Bool} {l r : Bool} {xs ys : List Nat} {n : Nat}
    (hxs : xs.Pairwise (· < ·)) (hys : ys.Pairwise (· < ·)) :
    covers (combineChanges op l r xs ys) n =
      (op l r != op (l != covers xs n) (r != covers ys n)) := by
  fun_induction combineChanges op l r xs ys with
  | case1 => simp [covers]
  | _ =>
    rename_i ih
    rw [covers_changeIf_bne (fun z hz => by grind [List.pairwise_cons, mem_combineChanges hz])
      (ih (by grind) (by grind))]
    split
    · simp (disch := omega) only [bne_covers_cons]
    · rw [bne_covers_of_lt (by grind [List.pairwise_cons]),
        bne_covers_of_lt (by grind [List.pairwise_cons]), bne_self_eq_false]

/-- Combines two sets symbol by symbol. -/
def combine (op : Bool → Bool → Bool) (s t : SymbolSet) : SymbolSet where
  changes := combineChanges op false false s.changes t.changes
  increasing := pairwise_combineChanges s.increasing t.increasing
  bounded := fun x hx => (mem_combineChanges hx).elim (s.bounded x) (t.bounded x)

theorem contains_combine {op : Bool → Bool → Bool} (h : op false false = false) (s t : SymbolSet)
    (c : Char) : (combine op s t).contains c = op (s.contains c) (t.contains c) := by
  simp [contains, combine, covers_combineChanges s.increasing t.increasing, h]

instance : EmptyCollection SymbolSet :=
  ⟨⟨[], .nil, by simp⟩⟩

instance : Union SymbolSet :=
  ⟨combine or⟩

instance : Inter SymbolSet :=
  ⟨combine and⟩

instance : SDiff SymbolSet :=
  ⟨combine fun a b => a && !b⟩

def symmetricDifference (s t : SymbolSet) : SymbolSet :=
  combine bne s t

def all : SymbolSet :=
  ⟨[0], by simp, by simp [symbolCount]⟩

def complement (s : SymbolSet) : SymbolSet :=
  all \ s

@[simp] theorem contains_empty (c : Char) : contains ∅ c = false := rfl

@[simp] theorem contains_all (c : Char) : all.contains c = true := by
  simp [contains, all, covers]

@[simp] theorem contains_union (s t : SymbolSet) (c : Char) :
    (s ∪ t).contains c = (s.contains c || t.contains c) :=
  contains_combine rfl s t c

@[simp] theorem contains_inter (s t : SymbolSet) (c : Char) :
    (s ∩ t).contains c = (s.contains c && t.contains c) :=
  contains_combine rfl s t c

@[simp] theorem contains_sdiff (s t : SymbolSet) (c : Char) :
    (s \ t).contains c = (s.contains c && !t.contains c) :=
  contains_combine rfl s t c

@[simp] theorem contains_symmetricDifference (s t : SymbolSet) (c : Char) :
    (s.symmetricDifference t).contains c = (s.contains c != t.contains c) :=
  contains_combine rfl s t c

@[simp] theorem contains_complement (s : SymbolSet) (c : Char) :
    s.complement.contains c = !s.contains c := by
  simp [complement]

theorem pairwise_pair {x y : Nat} (h : x ≤ y) : [x, y + 1].Pairwise (· < ·) := by
  simp
  omega

theorem symbolRank_pair_lt (c : Char) {x : Nat} (hx : x < symbolCount) :
    ∀ y ∈ [symbolRank c, x], y < symbolCount := by
  simp [symbolRank_lt, hx]

/-- The symbols from one to another, both included. -/
def ofRange (low high : Char) : SymbolSet :=
  if h : symbolRank low ≤ symbolRank high then
    if hlast : symbolRank high + 1 < symbolCount then
      ⟨[symbolRank low, symbolRank high + 1], pairwise_pair h, symbolRank_pair_lt low hlast⟩
    else
      ⟨[symbolRank low], List.pairwise_singleton _ _,
        List.forall_mem_singleton.2 (symbolRank_lt low)⟩
  else
    ∅

theorem contains_ofRange (low high c : Char) :
    (ofRange low high).contains c =
      decide (symbolRank low ≤ symbolRank c ∧ symbolRank c ≤ symbolRank high) := by
  have := symbolRank_lt c
  grind [ofRange, contains, covers, contains_empty]

def singleton (c : Char) : SymbolSet :=
  ofRange c c

def insert (s : SymbolSet) (c : Char) : SymbolSet :=
  if s.contains c then s else s ∪ singleton c

def ofList (cs : List Char) : SymbolSet :=
  cs.foldl insert ∅

/-- The symbols of a property. -/
def ofRanges (ranges : Unicode.Ranges) : SymbolSet :=
  ranges.foldl (fun s range => s ∪ ofRange (.ofNat range.1) (.ofNat range.2)) ∅

/-- The only symbol of a set; `none` if there are more symbols or none. -/
def single? (s : SymbolSet) : Option Char :=
  match s.changes with
  | [x] => if x + 1 = symbolCount then some (symbolAt x) else none
  | [x, y] => if x + 1 = y then some (symbolAt x) else none
  | _ => none

/-- A set together with all symbols that differ in case only from one of its own. -/
def ignoringCase (s : SymbolSet) : SymbolSet :=
  let folded := Unicode.foldPairs.foldl (fun t (a, b) => if s.contains a then t.insert b else t) s
  Unicode.foldPairs.foldl (fun t (a, b) => if folded.contains b then t.insert a else t) folded

end SymbolSet

end ParserAlgebra
