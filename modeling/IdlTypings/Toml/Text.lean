import IdlTypings.Json.Reader

/-!
# Characters, strings and keys of TOML

Every reader takes the unread characters and answers with what it read and the characters after
it, or with nothing if the text is not well formed.
-/

namespace IdlTypings.Toml

open Json (hexValue?)

abbrev Scan (α : Type) := List Char → Option (α × List Char)

/-- A carriage return only stands before a line feed, so the two are read as one line feed. -/
def joinLineBreaks : List Char → List Char
  | '\r' :: '\n' :: rest => '\n' :: joinLineBreaks rest
  | c :: rest => c :: joinLineBreaks rest
  | [] => []

def isBlank (c : Char) : Bool :=
  c = ' ' || c = '\t'

/-- The characters that may stand in a line of text. -/
def isTextual (c : Char) : Bool :=
  c = '\t' || (' ' ≤ c && c ≠ '\x7f')

def skipBlank (text : List Char) : List Char :=
  text.dropWhile isBlank

/-- Skips blanks, line feeds and comments. -/
def skipTrivia (inComment : Bool) : List Char → Option (List Char)
  | [] => some []
  | c :: rest =>
      if c = '\n' then skipTrivia false rest
      else if inComment then
        if isTextual c then skipTrivia true rest else none
      else if isBlank c then skipTrivia false rest
      else if c = '#' then skipTrivia true rest
      else some (c :: rest)

/-- The rest of a line, which holds nothing but blanks and a comment. -/
def endOfLine (text : List Char) : Option (List Char) :=
  match skipBlank text with
  | [] => some []
  | '\n' :: rest => some rest
  | '#' :: rest =>
      match rest.dropWhile isTextual with
      | [] => some []
      | '\n' :: rest => some rest
      | _ => none
  | _ => none

def hexNumber? (digits : List Char) : Option Nat :=
  digits.foldlM (fun n c => (hexValue? c).map (16 * n + ·)) 0

def scalarOfHex? (digits : List Char) : Option Char := do
  let n ← hexNumber? digits
  if n.isValidChar then some (Char.ofNat n) else none

/-- The character of an escape that is one letter long. -/
def shortEscape? (c : Char) : Option Char :=
  [('b', '\x08'), ('f', '\x0c'), ('n', '\n'), ('r', '\r'), ('t', '\t'), ('"', '"'),
    ('\\', '\\')].lookup c

def prepend (c : Char) : Option (List Char × List Char) → Option (List Char × List Char)
  | some (chars, rest) => some (c :: chars, rest)
  | none => none

/-- The rest of a string in quotation marks. -/
def basicString : Scan (List Char)
  | '"' :: rest => some ([], rest)
  | '\\' :: 'u' :: a :: b :: c :: d :: rest => do
      let scalar ← scalarOfHex? [a, b, c, d]
      prepend scalar (basicString rest)
  | '\\' :: 'U' :: a :: b :: c :: d :: e :: f :: g :: h :: rest => do
      let scalar ← scalarOfHex? [a, b, c, d, e, f, g, h]
      prepend scalar (basicString rest)
  | '\\' :: c :: rest => do
      let escaped ← shortEscape? c
      prepend escaped (basicString rest)
  | c :: rest => if isTextual c && c ≠ '\\' then prepend c (basicString rest) else none
  | [] => none

/-- The rest of a string in apostrophes. -/
def literalString : Scan (List Char)
  | [] => none
  | c :: rest =>
      if c = '\'' then some ([], rest)
      else if isTextual c then prepend c (literalString rest)
      else none

/-- The quotes before the closing three that still belong to the string. -/
def closingQuotes (quote : Char) : List Char → List Char × List Char
  | a :: b :: rest =>
      if a = quote ∧ b = quote then ([a, b], rest)
      else if a = quote then ([a], b :: rest)
      else ([], a :: b :: rest)
  | [a] => if a = quote then ([a], []) else ([], [a])
  | [] => ([], [])

/-- Where a string over many lines stands: in its text, after a backslash that ends the line, or in
the blanks that such a backslash swallows. -/
inductive Joint where
  | text
  | beforeBreak
  | afterBreak
  deriving DecidableEq, Repr

/-- The rest of a string in triple quotation marks. -/
def multilineBasic : Joint → Scan (List Char)
  | _, [] => none
  | .beforeBreak, c :: rest =>
      if c = '\n' then multilineBasic .afterBreak rest
      else if isBlank c then multilineBasic .beforeBreak rest
      else none
  | _, '"' :: rest =>
      match rest with
      | '"' :: '"' :: after => some (closingQuotes '"' after)
      | _ => prepend '"' (multilineBasic .text rest)
  | _, '\\' :: 'u' :: a :: b :: c :: d :: rest => do
      let scalar ← scalarOfHex? [a, b, c, d]
      prepend scalar (multilineBasic .text rest)
  | _, '\\' :: 'U' :: a :: b :: c :: d :: e :: f :: g :: h :: rest => do
      let scalar ← scalarOfHex? [a, b, c, d, e, f, g, h]
      prepend scalar (multilineBasic .text rest)
  | _, '\\' :: c :: rest =>
      if c = '\n' then multilineBasic .afterBreak rest
      else if isBlank c then multilineBasic .beforeBreak rest
      else do
        let escaped ← shortEscape? c
        prepend escaped (multilineBasic .text rest)
  | joint, c :: rest =>
      if joint = .afterBreak ∧ (isBlank c ∨ c = '\n') then multilineBasic .afterBreak rest
      else if c = '\n' ∨ (isTextual c ∧ c ≠ '\\') then prepend c (multilineBasic .text rest)
      else none

/-- The rest of a string in triple apostrophes. -/
def multilineLiteral : Scan (List Char)
  | [] => none
  | '\'' :: '\'' :: '\'' :: after => some (closingQuotes '\'' after)
  | c :: rest =>
      if c = '\n' || isTextual c then prepend c (multilineLiteral rest) else none

/-- A line feed right after the opening quotes is no part of a string. -/
def dropFirstBreak : List Char → List Char
  | '\n' :: rest => rest
  | text => text

/-- A string of any of the four forms. -/
def stringValue : Scan String
  | '"' :: '"' :: '"' :: rest =>
      (multilineBasic .text (dropFirstBreak rest)).map (Prod.map String.ofList id)
  | '"' :: rest => (basicString rest).map (Prod.map String.ofList id)
  | '\'' :: '\'' :: '\'' :: rest =>
      (multilineLiteral (dropFirstBreak rest)).map (Prod.map String.ofList id)
  | '\'' :: rest => (literalString rest).map (Prod.map String.ofList id)
  | _ => none

def isBare (c : Char) : Bool :=
  c.isAlphanum || c = '-' || c = '_'

/-- One part of a key: a string on one line or a bare word. -/
def keyPart : Scan String
  | '"' :: rest => (basicString rest).map (Prod.map String.ofList id)
  | '\'' :: rest => (literalString rest).map (Prod.map String.ofList id)
  | text =>
      let word := text.takeWhile isBare
      if word.isEmpty then none else some (String.ofList word, text.dropWhile isBare)

/-- The parts of a key, separated by dots. There are at most `fuel` of them. -/
def keyParts : Nat → Scan (List String)
  | 0, _ => none
  | fuel + 1, text => do
      let (part, rest) ← keyPart (skipBlank text)
      match skipBlank rest with
      | '.' :: rest => do
          let (parts, rest) ← keyParts fuel rest
          return (part :: parts, rest)
      | rest => return ([part], rest)

/-- A key has fewer than 80 parts. -/
def key : Scan (List String) := keyParts 79

end IdlTypings.Toml
