/-!
# Tables of names

A table gives each name at most one meaning. A name that is set again loses its earlier meaning.
-/

namespace ParserAlgebra

abbrev Table (κ α : Type) :=
  List (κ × α)

namespace Table

variable {κ α : Type} [DecidableEq κ]

def get? (t : Table κ α) (key : κ) : Option α :=
  (t.find? (·.1 = key)).map (·.2)

def erase (t : Table κ α) (key : κ) : Table κ α :=
  t.filter (·.1 ≠ key)

def set (t : Table κ α) (key : κ) (value : α) : Table κ α :=
  (key, value) :: t.erase key

def values (t : Table κ α) : List α :=
  t.map (·.2)

@[simp] theorem get?_set_self (t : Table κ α) (key : κ) (value : α) :
    (t.set key value).get? key = some value := by
  simp [get?, set]

@[simp] theorem get?_erase_self (t : Table κ α) (key : κ) : (t.erase key).get? key = none := by
  simp [get?, erase, List.find?_eq_none]

end Table

end ParserAlgebra
