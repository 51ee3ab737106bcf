/-!
# Journals

The external state of scripted actions: entries in the order they were made, and a count.
-/

namespace ParserAlgebra

structure Journal where
  entries : List String := []
  count : Int := 0
  deriving DecidableEq

namespace Journal

def push (entry : String) (j : Journal) : Journal :=
  { j with entries := j.entries ++ [entry] }

def add (k : Int) (j : Journal) : Journal :=
  { j with count := j.count + k }

@[simp] theorem entries_push (entry : String) (j : Journal) :
    (j.push entry).entries = j.entries ++ [entry] := rfl

@[simp] theorem entries_add (k : Int) (j : Journal) : (j.add k).entries = j.entries := rfl

end Journal

end ParserAlgebra
