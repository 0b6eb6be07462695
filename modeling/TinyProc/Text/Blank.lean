/-!
# Blank characters

The characters of Unicode's `White_Space` property, and trimming by them. Input lines are trimmed
this way before a number is read from them; the source text of a program knows only four of these
characters as white space (`Token.isWhiteSpace`).
-/

namespace TinyProc

/-- Whether `c` has the property `White_Space`. -/
def isBlank (c : Char) : Bool :=
  let n := c.toNat
  (0x9 ≤ n && n ≤ 0xD) || n == 0x20 || n == 0x85 || n == 0xA0 || n == 0x1680 ||
    (0x2000 ≤ n && n ≤ 0x200A) || n == 0x2028 || n == 0x2029 || n == 0x202F || n == 0x205F ||
    n == 0x3000

/-- Takes the blanks off the front. -/
def trimStart (text : List Char) : List Char :=
  text.dropWhile isBlank

/-- Takes the blanks off both ends. -/
def trim (text : List Char) : List Char :=
  (trimStart (trimStart text).reverse).reverse

@[simp] theorem trim_nil : trim [] = [] := rfl

end TinyProc
