/-!
# Texts measured in bytes

A text is a list of symbols, but offsets into it count the bytes of its UTF-8 form. An offset that
falls inside a symbol, or past the end, names no place of the text: `dropBytes?` and `takeBytes?`
then have no answer.
-/

namespace ParserAlgebra.Text

/-- The number of bytes of a text. -/
def byteLength : List Char → Nat
  | [] => 0
  | c :: cs => c.utf8Size + byteLength cs

@[simp] theorem byteLength_nil : byteLength [] = 0 := rfl

@[simp] theorem byteLength_cons (c : Char) (cs : List Char) :
    byteLength (c :: cs) = c.utf8Size + byteLength cs := rfl

@[simp] theorem byteLength_append (xs ys : List Char) :
    byteLength (xs ++ ys) = byteLength xs + byteLength ys := by
  induction xs with
  | nil => simp
  | cons c cs ih => simp [ih, Nat.add_assoc]

/-- What follows the first `n` bytes of a text. -/
def dropBytes? (n : Nat) : List Char → Option (List Char)
  | [] => if n = 0 then some [] else none
  | c :: cs =>
    if n = 0 then some (c :: cs)
    else if c.utf8Size ≤ n then dropBytes? (n - c.utf8Size) cs
    else none

/-- The first `n` bytes of a text. -/
def takeBytes? (n : Nat) : List Char → Option (List Char)
  | [] => if n = 0 then some [] else none
  | c :: cs =>
    if n = 0 then some []
    else if c.utf8Size ≤ n then (takeBytes? (n - c.utf8Size) cs).map (c :: ·)
    else none

@[simp] theorem dropBytes?_zero (cs : List Char) : dropBytes? 0 cs = some cs := by
  cases cs <;> simp [dropBytes?]

@[simp] theorem takeBytes?_zero (cs : List Char) : takeBytes? 0 cs = some [] := by
  cases cs <;> simp [takeBytes?]

theorem dropBytes?_append (xs ys : List Char) :
    dropBytes? (byteLength xs) (xs ++ ys) = some ys := by
  induction xs with
  | nil => simp
  | cons c cs ih =>
    have hc : c.utf8Size ≠ 0 := Nat.ne_of_gt c.utf8Size_pos
    simp [dropBytes?, hc, ih]

theorem takeBytes?_append (xs ys : List Char) :
    takeBytes? (byteLength xs) (xs ++ ys) = some xs := by
  induction xs with
  | nil => simp
  | cons c cs ih =>
    have hc : c.utf8Size ≠ 0 := Nat.ne_of_gt c.utf8Size_pos
    simp [takeBytes?, hc, ih]

/-- The text between two byte offsets. -/
def slice? (start stop : Nat) (cs : List Char) : Option (List Char) :=
  if start ≤ stop then (dropBytes? start cs).bind (takeBytes? (stop - start)) else none

end ParserAlgebra.Text
