import ParserAlgebra.Unicode.Printable

/-!
# Quoted symbols and texts

A rule prints the symbols and texts it matches between quotes, with what a reader could not see or
could misread written as an escape. A quoted symbol keeps only visible ASCII as it is, a quoted text
every symbol that has a visible form of its own.
-/

namespace ParserAlgebra.Text

/-- The escape that names a symbol by its code point in hexadecimal. -/
def codePointEscape (c : Char) : String :=
  "\\u\x7b" ++ String.ofList (Nat.toDigits 16 c.toNat) ++ "\x7d"

/-- A symbol as it stands between single quotes. -/
def escapeSymbol (c : Char) : String :=
  match c with
  | '\t' => "\\t"
  | '\r' => "\\r"
  | '\n' => "\\n"
  | '\'' => "\\'"
  | '"' => "\\\""
  | '\\' => "\\\\"
  | c => if 0x20 ≤ c.toNat && c.toNat ≤ 0x7E then c.toString else codePointEscape c

/-- A symbol as it stands between the double quotes of a text. -/
def escapeInText (c : Char) : String :=
  match c with
  | '\x00' => "\\0"
  | '\t' => "\\t"
  | '\r' => "\\r"
  | '\n' => "\\n"
  | '"' => "\\\""
  | '\\' => "\\\\"
  | c =>
    if Unicode.extendsGrapheme c || !Unicode.isPrintable c then codePointEscape c else c.toString

def quoteSymbol (c : Char) : String :=
  "'" ++ escapeSymbol c ++ "'"

def quote (text : String) : String :=
  "\"" ++ String.join (text.toList.map escapeInText) ++ "\""

end ParserAlgebra.Text
