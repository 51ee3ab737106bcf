/-!
# Definitions

The named rules that the rendering of a grammar has come upon, each with its written body, in the
order in which they were entered.
-/

namespace ParserAlgebra

structure Definitions where
  entries : List (String × String)
  deriving DecidableEq

namespace Definitions

def empty : Definitions :=
  ⟨[]⟩

def names (d : Definitions) : List String :=
  d.entries.map (·.1)

def contains (d : Definitions) (name : String) : Bool :=
  name ∈ d.names

/-- Enters a definition behind all others; an earlier one of the same name is given up. -/
def insert (d : Definitions) (name body : String) : Definitions :=
  ⟨d.entries.filter (·.1 ≠ name) ++ [(name, body)]⟩

/-- Changes the body of a definition where it stands. -/
def amend (d : Definitions) (name body : String) : Definitions :=
  ⟨d.entries.map fun entry => if entry.1 = name then (name, body) else entry⟩

/-- The definitions of a list of entries, entered one after the other. -/
def ofList (entries : List (String × String)) : Definitions :=
  entries.foldl (fun d entry => d.insert entry.1 entry.2) empty

@[simp] theorem contains_iff {d : Definitions} {name : String} :
    d.contains name = true ↔ name ∈ d.names := by
  simp [contains]

/-- A new name goes behind all others. -/
theorem insert_of_not_mem {d : Definitions} {name : String} (h : name ∉ d.names) (body : String) :
    d.insert name body = ⟨d.entries ++ [(name, body)]⟩ := by
  have hkeep : d.entries.filter (·.1 ≠ name) = d.entries := by
    refine List.filter_eq_self.2 fun entry hentry => ?_
    have hne : entry.1 ≠ name := fun heq => h (heq ▸ List.mem_map_of_mem hentry)
    simp [hne]
  rw [insert, hkeep]

/-- Amending a body changes no name and no order. -/
@[simp] theorem names_amend (d : Definitions) (name body : String) :
    (d.amend name body).names = d.names := by
  unfold amend names
  rw [List.map_map]
  refine List.map_congr_left fun entry _ => ?_
  by_cases h : entry.1 = name <;> simp [h]

end Definitions

end ParserAlgebra
