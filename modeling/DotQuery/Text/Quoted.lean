import DotQuery.Text.Invisible
import DotQuery.Text.Numeral

/-!
# Quoted texts

`quoted t` is `t` between double quotes on one line: quotes and backslashes are escaped by a
backslash, line ends, tabs and NUL by their letters, and every character that would not be visible
by its code point in hexadecimal.
-/

namespace DotQuery

def quotedChar (c : Char) : Text :=
  match c with
  | '"' => ['\\', '"']
  | '\\' => ['\\', '\\']
  | '\n' => ['\\', 'n']
  | '\r' => ['\\', 'r']
  | '\t' => ['\\', 't']
  | '\x00' => ['\\', '0']
  | c => if isVisible c then [c] else ['\\', 'u', '\x7b'] ++ Text.ofNatHex c.toNat ++ ['\x7d']

def Text.quoted (t : Text) : Text := '"' :: t.flatMap quotedChar ++ ['"']

end DotQuery
