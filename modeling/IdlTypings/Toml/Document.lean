import IdlTypings.Toml.Reader

/-!
# TOML documents

A document is read line by line into the table of the last header. That table joins the others when
the next header comes.
-/

namespace IdlTypings.Toml

/-- What is built from the lines so far: all tables but the last, the entries of the last one, and
the header that leads to it. -/
structure Draft where
  root : Entries
  current : Entries
  path : List String
  inArray : Bool

def Draft.empty : Draft := ⟨[], [], [], false⟩

/-- Adds a table at the end of an array of tables. -/
def appendTable (name : String) (table : Entries) (entries : Entries) : Option Entries :=
  match entries.lookup name with
  | some (.tables elements) => some (entries.put name (.tables (elements ++ [table])))
  | _ => none

/-- The document with the current table in its place. -/
def Draft.close (d : Draft) : Option Entries :=
  match d.path.getLast? with
  | none => some d.current
  | some name => do
      let insert (entries : Entries) : Option (Unit × Entries) :=
        if d.inArray then (appendTable name d.current entries).map ((), ·)
        else some ((), entries.put name (.table .header d.current))
      let (_, root) ← Entries.descend insert d.path.dropLast d.root
      return root

/-- Takes out a table that was only passed through so far. Any other one is taken already. -/
def takePassed (name : String) (entries : Entries) : Option (Entries × Entries) :=
  match entries.lookup name with
  | none => some ([], entries)
  | some (.table .passing inner) => some (inner, entries.remove name)
  | some _ => none

def Draft.openTable (d : Draft) (path : List String) : Option Draft := do
  let name ← path.getLast?
  let root ← d.close
  let (current, root) ← Entries.descend (takePassed name) path.dropLast root
  return ⟨root, current, path, false⟩

def startArray (name : String) (entries : Entries) : Option (Unit × Entries) :=
  match entries.lookup name with
  | none => some ((), entries.put name (.tables []))
  | some (.tables _) => some ((), entries)
  | some _ => none

def Draft.openArray (d : Draft) (path : List String) : Option Draft := do
  let name ← path.getLast?
  let root ← d.close
  let (_, root) ← Entries.descend (startArray name) path.dropLast root
  return ⟨root, [], path, true⟩

def Draft.add (d : Draft) (parts : List String) (value : Value) : Option Draft := do
  let current ← d.current.add parts value
  return { d with current }

/-- The draft with the line at the start of the text. A value may go on over several lines. -/
def Draft.line (d : Draft) : List Char → Option (Draft × List Char)
  | '[' :: '[' :: rest => do
      let (path, rest) ← key rest
      let rest ← expectChar ']' rest
      let rest ← expectChar ']' rest
      let d ← d.openArray path
      return (d, ← endOfLine rest)
  | '[' :: rest => do
      let (path, rest) ← key rest
      let rest ← expectChar ']' rest
      let d ← d.openTable path
      return (d, ← endOfLine rest)
  | text => do
      let ((parts, value), rest) ← keyValue (value depthLimit) text
      let d ← d.add parts value
      return (d, ← endOfLine rest)

/-- The draft with all lines of the text. There are at most `fuel` of them. -/
def Draft.lines (d : Draft) : Nat → List Char → Option Draft
  | 0, _ => none
  | fuel + 1, text => do
      let text ← skipTrivia false text
      match text with
      | [] => some d
      | _ => do
          let (d, rest) ← d.line text
          d.lines fuel rest

def dropByteOrderMark : List Char → List Char
  | '\ufeff' :: rest => rest
  | text => text

/-- The entries of a document, or nothing if it is not well formed. -/
def parse (text : String) : Option (List (String × Value)) := do
  let text := joinLineBreaks (dropByteOrderMark text.toList)
  let draft ← Draft.empty.lines (text.length + 1) text
  let entries ← draft.close
  return freezeEntries entries

end IdlTypings.Toml
