import DotQuery.Toml.Quotes
import DotQuery.Toml.Table

/-!
# Reading TOML

`Toml.ofText?` reads a document as the fields of its root table. Readers take what they recognise
off the front of the text. Values nest, so their readers count down `fuel`, of which twice the
length of the text is enough; arrays and inline tables may be `maxDepth` deep, and a dotted key may
have as many parts.
-/

namespace DotQuery.Toml

abbrev Reader := StateT Text Option

namespace Reader

def ofFunction {α : Type} (f : Text → Option (α × Text)) : Reader α := f

def peek : Reader (Option Char) := do return (← get).head?

def skipWhile (p : Char → Bool) : Reader Unit := modify (List.dropWhile p)

/-- Take a token if it is there. -/
def accept (token : Text) : Reader Bool := do
  match Text.afterToken? token (← get) with
  | some rest => set rest; return true
  | none => return false

def expect (token : Text) : Reader Unit := do
  guard (← accept token)

def skipBlanks : Reader Unit := skipWhile isInlineBlank

end Reader

open Reader

/-! ## Blanks and comments -/

/-- What follows blanks, line breaks and comments. -/
def afterTrivia? (inComment : Bool) : Text → Option Text
  | [] => some []
  | '\n' :: t => afterTrivia? false t
  | '\r' :: '\n' :: t => afterTrivia? false t
  | c :: t =>
    if inComment then if isControl c then none else afterTrivia? true t
    else if c = '#' then afterTrivia? true t
    else if isInlineBlank c then afterTrivia? false t
    else some (c :: t)

def skipTrivia : Reader Unit := do set (← ofFunction fun t => (afterTrivia? false t).map (·, t))

/-- The end of a statement: perhaps a comment, then a line break or the end of the document. -/
def lineEnd : Reader Unit := do
  skipBlanks
  if ← accept ['#'] then skipWhile fun c => !isControl c
  match ← get with
  | [] => return
  | '\n' :: _ => return
  | '\r' :: '\n' :: _ => return
  | _ => failure

def maxDepth : Nat := 80

/-! ## Keys -/

def isKeyChar (c : Char) : Bool := isWord c || c == '-'

def simpleKey : Reader Text := do
  if ← accept ['"'] then ofFunction (basicString [])
  else if ← accept ['\x27'] then ofFunction literalString
  else
    let t ← get
    let name := t.takeWhile isKeyChar
    guard (name ≠ [])
    set (t.dropWhile isKeyChar)
    return name

/-- The parts of a dotted key. -/
def keyParts : Nat → Reader (List Text)
  | 0 => failure
  | fuel + 1 => do
    skipBlanks
    let name ← simpleKey
    skipBlanks
    if ← accept ['.'] then return name :: (← keyParts fuel) else return [name]

def key : Reader (List Text) := do
  let parts ← keyParts (← get).length
  guard (parts.length ≤ maxDepth)
  return parts

/-! ## Values -/

def isScalarChar (c : Char) : Bool :=
  isWord c || c == '+' || c == '-' || c == '.' || c == ':'

/-- A word, and after a date the time that a blank separates from it. -/
def scalar : Reader Toml := do
  let t ← get
  let word := t.takeWhile isScalarChar
  match isDate word, t.dropWhile isScalarChar with
  | true, ' ' :: c :: r =>
    if isDigit c then
      set ((c :: r).dropWhile isScalarChar)
      ofFunction fun rest =>
        (scalar? (word ++ ' ' :: (c :: r).takeWhile isScalarChar)).map (·, rest)
    else
      set (' ' :: c :: r)
      ofFunction fun rest => (scalar? word).map (·, rest)
  | _, rest =>
    set rest
    ofFunction fun rest => (scalar? word).map (·, rest)

mutual

def value (fuel depth : Nat) : Reader Toml :=
  match fuel with
  | 0 => failure
  | fuel + 1 => do
    if ← accept "\"\"\"".toList then
      return .string (← ofFunction fun t => longBasicString false [] (dropLineBreak t))
    else if ← accept ['"'] then return .string (← ofFunction (basicString []))
    else if ← accept ['\x27', '\x27', '\x27'] then
      return .string (← ofFunction fun t => longLiteralString [] (dropLineBreak t))
    else if ← accept ['\x27'] then return .string (← ofFunction literalString)
    else if ← accept ['['] then
      guard (depth < maxDepth)
      return .array (← items fuel (depth + 1))
    else if ← accept ['\x7b'] then
      guard (depth < maxDepth)
      skipBlanks
      if ← accept ['\x7d'] then return .table []
      let fields ← inlineFields fuel (depth + 1)
      ofFunction fun t => (inlineTable? fields []).map (·, t)
    else scalar

/-- The items of an array up to its closing bracket; a comma may follow the last. -/
def items (fuel depth : Nat) : Reader (List Toml) :=
  match fuel with
  | 0 => failure
  | fuel + 1 => do
    skipTrivia
    if ← accept [']'] then return []
    let v ← value fuel depth
    skipTrivia
    if ← accept [','] then return v :: (← items fuel depth)
    expect [']']
    return [v]

/-- The fields of an inline table up to its closing brace. -/
def inlineFields (fuel depth : Nat) : Reader (List (List Text × Toml)) :=
  match fuel with
  | 0 => failure
  | fuel + 1 => do
    let name ← key
    expect ['=']
    skipBlanks
    let v ← value fuel depth
    skipBlanks
    if ← accept [','] then return (name, v) :: (← inlineFields fuel depth)
    expect ['\x7d']
    return [(name, v)]

end

/-! ## Documents -/

def statement : Reader Statement := do
  if ← accept "[[".toList then
    let path ← key
    expect "]]".toList
    return .itemHeader path
  else if ← accept ['['] then
    let path ← key
    expect [']']
    return .header path
  else
    let name ← key
    expect ['=']
    skipBlanks
    return .assign name (← value (2 * (← get).length + 2) 0)

def statements : Nat → Reader (List Statement)
  | 0 => failure
  | fuel + 1 => do
    skipTrivia
    if (← peek).isNone then return []
    let s ← statement
    lineEnd
    return s :: (← statements fuel)

/-- The fields of the root table of a document. A byte order mark may come first. -/
def ofText? (t : Text) : Option (Fields Toml) := do
  let t := match t with | '\ufeff' :: r => r | t => t
  let (found, _) ← (statements (t.length + 1)).run t
  document? found

end DotQuery.Toml
