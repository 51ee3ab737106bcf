import ParserAlgebra.Unicode.Ranges

/-!
# Whitespace

The symbols with the property `White_Space`: what separates tokens and what a diagnostic's excerpt
prints as a plain space.
-/

namespace ParserAlgebra.Unicode

/-- The ten ranges of `White_Space`. -/
def blankRanges : Ranges :=
  [(0x9, 0xD), (0x20, 0x20), (0x85, 0x85), (0xA0, 0xA0), (0x1680, 0x1680), (0x2000, 0x200A),
   (0x2028, 0x2029), (0x202F, 0x202F), (0x205F, 0x205F), (0x3000, 0x3000)]

/-- Whether a symbol is whitespace, line feeds and the wide spaces included. -/
def isBlank (c : Char) : Bool :=
  blankRanges.covers c

end ParserAlgebra.Unicode
