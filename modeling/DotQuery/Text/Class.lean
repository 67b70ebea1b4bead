import DotQuery.Text.Basic

/-!
# Classes of characters

`isBlank` is Unicode's White_Space property, `trim` removes blanks at both ends. Digits, letters and
word characters are ASCII.
-/

namespace DotQuery

/-- Unicode White_Space. -/
def isBlank (c : Char) : Bool :=
  let n := c.toNat
  (9 ≤ n && n ≤ 13) || n == 0x20 || n == 0x85 || n == 0xA0 || n == 0x1680 ||
    (0x2000 ≤ n && n ≤ 0x200A) || n == 0x2028 || n == 0x2029 || n == 0x202F || n == 0x205F ||
    n == 0x3000

theorem isBlank_space : isBlank ' ' = true := rfl

def isDigit (c : Char) : Bool := '0' ≤ c && c ≤ '9'

def isLetter (c : Char) : Bool := ('a' ≤ c && c ≤ 'z') || ('A' ≤ c && c ≤ 'Z')

/-- A character of a word: a letter, a digit or an underscore. -/
def isWord (c : Char) : Bool := isLetter c || isDigit c || c == '_'

/-- The upper-case form of an ASCII letter is made lower case, all else is kept. -/
def lowerAscii (c : Char) : Char := if 'A' ≤ c && c ≤ 'Z' then Char.ofNat (c.toNat + 32) else c

namespace Text

def trimLeft (t : Text) : Text := t.dropWhile isBlank

def trimRight (t : Text) : Text := (t.reverse.dropWhile isBlank).reverse

def trim (t : Text) : Text := (trimLeft t).trimRight

def allDigits (t : Text) : Bool := !t.isEmpty && t.all isDigit

/-- Equality up to the case of ASCII letters. -/
def eqIgnoreCase (s t : Text) : Bool := s.map lowerAscii == t.map lowerAscii

end Text

end DotQuery
