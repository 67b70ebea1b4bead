import DotQuery.Text.Numeral

/-!
# TOML strings

The readers of this module start after an opening quote and give the string and what follows the
closing quote. `read` is what has been read so far, the last character first.
-/

namespace DotQuery.Toml

/-- Control characters other than the tab stand for themselves nowhere. -/
def isControl (c : Char) : Bool := (c.toNat < 0x20 && c != '\t') || c.toNat == 0x7F

/-- The character of a code point in hexadecimal; there are none for surrogates. -/
def ofCode? (digits : Text) : Option Char := do
  let ds ← digits.mapM (digitValue? 16)
  let n := ds.foldl (fun n d => 16 * n + d) 0
  if n.isValidChar then some (Char.ofNat n) else none

def escape? : Char → Option Char
  | 'b' => some '\x08'
  | 't' => some '\t'
  | 'n' => some '\n'
  | 'f' => some '\x0c'
  | 'r' => some '\r'
  | '"' => some '"'
  | '\\' => some '\\'
  | _ => none

/-- A string between double quotes on one line. -/
def basicString (read : Text) : Text → Option (Text × Text)
  | [] => none
  | '"' :: t => some (read.reverse, t)
  | '\\' :: 'u' :: a :: b :: c :: d :: t =>
    match ofCode? [a, b, c, d] with
    | some x => basicString (x :: read) t
    | none => none
  | '\\' :: 'U' :: a :: b :: c :: d :: e :: f :: g :: h :: t =>
    match ofCode? [a, b, c, d, e, f, g, h] with
    | some x => basicString (x :: read) t
    | none => none
  | '\\' :: c :: t =>
    match escape? c with
    | some x => basicString (x :: read) t
    | none => none
  | c :: t => if isControl c then none else basicString (c :: read) t

/-- A string between single quotes on one line, without escapes. -/
def literalString (t : Text) : Option (Text × Text) :=
  let body := t.takeWhile fun c => c != '\x27' && !isControl c
  match t.dropWhile fun c => c != '\x27' && !isControl c with
  | '\x27' :: r => some (body, r)
  | _ => none

def isInlineBlank (c : Char) : Bool := c == ' ' || c == '\t'

/-- A line break after blanks. -/
def startsLine (t : Text) : Bool :=
  match t.dropWhile isInlineBlank with
  | '\n' :: _ => true
  | '\r' :: '\n' :: _ => true
  | _ => false

/-- Up to two quotes may stand right before the three that close a string. -/
def closing (quote : Char) (read : Text) : Text → Text × Text
  | c :: d :: t =>
    if c = quote ∧ d = quote then ((quote :: quote :: read).reverse, t)
    else if c = quote then ((quote :: read).reverse, d :: t)
    else (read.reverse, c :: d :: t)
  | [c] => if c = quote then ((quote :: read).reverse, []) else (read.reverse, [c])
  | [] => (read.reverse, [])

/-- A string between three double quotes. A backslash at the end of a line takes away the blanks and
line breaks that follow; `skipping` says that this is going on. -/
def longBasicString (skipping : Bool) (read : Text) : Text → Option (Text × Text)
  | [] => none
  | '"' :: '"' :: '"' :: t => some (closing '"' read t)
  | '\\' :: 'u' :: a :: b :: c :: d :: t =>
    match ofCode? [a, b, c, d] with
    | some x => longBasicString false (x :: read) t
    | none => none
  | '\\' :: 'U' :: a :: b :: c :: d :: e :: f :: g :: h :: t =>
    match ofCode? [a, b, c, d, e, f, g, h] with
    | some x => longBasicString false (x :: read) t
    | none => none
  | '\\' :: c :: t =>
    match escape? c with
    | some x => longBasicString false (x :: read) t
    | none => if startsLine (c :: t) then longBasicString true read (c :: t) else none
  | '\r' :: '\n' :: t =>
    longBasicString skipping (if skipping then read else '\n' :: '\r' :: read) t
  | '\n' :: t => longBasicString skipping (if skipping then read else '\n' :: read) t
  | c :: t =>
    if skipping && isInlineBlank c then longBasicString true read t
    else if isControl c then none
    else longBasicString false (c :: read) t

/-- A string between three single quotes, without escapes. -/
def longLiteralString (read : Text) : Text → Option (Text × Text)
  | [] => none
  | '\x27' :: '\x27' :: '\x27' :: t => some (closing '\x27' read t)
  | '\r' :: '\n' :: t => longLiteralString ('\n' :: '\r' :: read) t
  | '\n' :: t => longLiteralString ('\n' :: read) t
  | c :: t => if isControl c then none else longLiteralString (c :: read) t

/-- A line break right after the opening quotes is not part of a string. -/
def dropLineBreak : Text → Text
  | '\n' :: t => t
  | '\r' :: '\n' :: t => t
  | t => t

end DotQuery.Toml
