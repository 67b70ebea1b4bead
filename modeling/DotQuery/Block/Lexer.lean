import DotQuery.Text.Numeral

/-!
# Lexers for block lines

A lexer takes what it recognises off the front of a text. `Lexed.rest` is what is left over, also
after a failure: a keyword and a number give back all that they looked at, a labelled value keeps
the label that it has recognised.
-/

namespace DotQuery.Block

structure Lexed (α : Type) where
  value : Option α
  rest : Text
deriving DecidableEq

def Lexed.map {α β : Type} (f : α → β) (r : Lexed α) : Lexed β := ⟨r.value.map f, r.rest⟩

def isLineEnd (c : Char) : Bool := c == '\n' || c == '\r'

/-- All up to the next CR or LF. -/
def restOfLine (t : Text) : Lexed Text :=
  ⟨some (t.takeWhile fun c => !isLineEnd c), t.dropWhile fun c => !isLineEnd c⟩

def isInlineBlank (c : Char) : Bool := c == ' ' || c == '\t'

/-- The trimmed rest of the line after a label and a colon. -/
def labelledValue (label t : Text) : Lexed Text :=
  match Text.afterToken? label t with
  | none => ⟨none, t⟩
  | some (':' :: r) => (restOfLine (r.dropWhile isInlineBlank)).map Text.trim
  | some r => ⟨none, r⟩

/-- A character that a keyword cannot be followed by. -/
def continuesKeyword (c : Char) : Bool := isWord c || c == '-'

def keyword (word t : Text) : Lexed Unit :=
  match Text.afterToken? word t with
  | none => ⟨none, t⟩
  | some r => if r.head?.any continuesKeyword then ⟨none, t⟩ else ⟨some (), r⟩

/-- A run of digits whose number fits 64 bits. -/
def number (t : Text) : Lexed Nat :=
  match Text.natural? (t.takeWhile isDigit) with
  | some n => ⟨some n, t.dropWhile isDigit⟩
  | none => ⟨none, t⟩

end DotQuery.Block
