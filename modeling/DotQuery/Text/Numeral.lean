import DotQuery.Text.Class

/-!
# Numerals

Natural numbers in decimal: `ofNat` writes one, `natural` is the number that a run of digits
denotes, `natural?` refuses numbers that do not fit a bound.
-/

namespace DotQuery

/-- The number below 16 that a hexadecimal digit denotes. -/
def digitValue? (radix : Nat) (c : Char) : Option Nat :=
  let n := c.toNat
  let d :=
    if isDigit c then some (n - '0'.toNat)
    else if 'a' ≤ c && c ≤ 'f' then some (n - 'a'.toNat + 10)
    else if 'A' ≤ c && c ≤ 'F' then some (n - 'A'.toNat + 10)
    else none
  d.filter (· < radix)

namespace Text

def ofNat (n : Nat) : Text := Nat.toDigits 10 n

/-- The number that a run of decimal digits denotes. -/
def natural (t : Text) : Nat := t.foldl (fun n c => 10 * n + (c.toNat - '0'.toNat)) 0

/-- One past the largest number of 64 bits. -/
def wordLimit : Nat := Nat.pow 2 64

/-- A non-empty run of digits whose number fits 64 bits. -/
def natural? (t : Text) : Option Nat :=
  if t.allDigits && t.natural < wordLimit then some t.natural else none

/-- The digits of a number in lower-case hexadecimal. -/
def ofNatHex (n : Nat) : Text := Nat.toDigits 16 n

def ofInt : Int → Text
  | .ofNat n => ofNat n
  | .negSucc n => '-' :: ofNat (n + 1)

end Text

end DotQuery
