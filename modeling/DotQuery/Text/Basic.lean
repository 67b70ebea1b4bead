/-!
# Texts

A `Text` is a list of characters: every reader and printer of this library is a function on lists.
`cutAtFirst` cuts at the first occurrence of a token, `splitOn` at every occurrence of a character,
`lines` at line ends; `joinWith` is the way back.
-/

namespace DotQuery

abbrev Text := List Char

namespace Text

def ofString (s : String) : Text := s.toList

def toString (t : Text) : String := String.ofList t

/-- The number of bytes of a text in UTF-8. -/
def byteLength (t : Text) : Nat := t.foldl (fun n c => n + c.utf8Size) 0

/-- The order of a dictionary, in which a text comes before the texts that it begins. -/
def precedes : Text → Text → Bool
  | [], _ => true
  | _ :: _, [] => false
  | a :: s, b :: t => if a = b then precedes s t else a < b

/-! ## Cutting -/

/-- What follows `token` in a text that begins with it. -/
def afterToken? : Text → Text → Option Text
  | [], t => some t
  | _ :: _, [] => none
  | a :: token, c :: t => if a = c then afterToken? token t else none

/-- The text before and after the first occurrence of `token`. -/
def cutAtFirst (token : Text) : Text → Option (Text × Text)
  | [] => if token = [] then some ([], []) else none
  | c :: t =>
    match afterToken? token (c :: t) with
    | some rest => some ([], rest)
    | none => (cutAtFirst token t).map fun (before, rest) => (c :: before, rest)

/-- The text before and after the last occurrence of a character. -/
def cutAtLast (sep : Char) : Text → Option (Text × Text)
  | [] => none
  | c :: t =>
    match cutAtLast sep t with
    | some (before, after) => some (c :: before, after)
    | none => if c = sep then some ([], t) else none

/-- Put a character in front of the first of some pieces. -/
def consHead (c : Char) : List Text → List Text
  | [] => [[c]]
  | p :: ps => (c :: p) :: ps

/-- The pieces between the occurrences of `sep`; a text without any is one piece. -/
def splitOn (sep : Char) : Text → List Text
  | [] => [[]]
  | c :: t => if c = sep then [] :: splitOn sep t else consHead c (splitOn sep t)

/-- The lines of a text. A line ends with LF or CRLF; the end of the text ends a last line that is
not empty. -/
def lines : Text → List Text
  | [] => []
  | '\n' :: t => [] :: lines t
  | '\r' :: '\n' :: t => [] :: lines t
  | c :: t => consHead c (lines t)

/-! ## Joining -/

def joinWith (sep : Text) : List Text → Text
  | [] => []
  | [p] => p
  | p :: q :: ps => p ++ sep ++ joinWith sep (q :: ps)

/-- Blanks on the left up to a width. -/
def padLeft (width : Nat) (t : Text) : Text := List.replicate (width - t.length) ' ' ++ t

/-- Blanks on the right up to a width. -/
def padRight (width : Nat) (t : Text) : Text := t ++ List.replicate (width - t.length) ' '

end Text

end DotQuery
