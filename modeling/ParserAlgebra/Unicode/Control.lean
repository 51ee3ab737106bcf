/-!
# Control symbols

The symbols of the general category `Cc`: the two blocks of control codes and the delete symbol
between them.
-/

namespace ParserAlgebra.Unicode

def isControl (c : Char) : Bool :=
  c.toNat < 0x20 || (0x7F ≤ c.toNat && c.toNat < 0xA0)

end ParserAlgebra.Unicode
