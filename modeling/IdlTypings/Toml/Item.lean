import IdlTypings.Toml.Value

/-!
# Tables under construction

Headers and dotted keys make tables in passing. Such a table may be added to later, in the way that
it was made; a table with a header of its own, or one that is written as a value, may not.
-/

namespace IdlTypings.Toml

/-- How a table came to be. -/
inductive Origin where
  /-- By a header of its own. -/
  | header
  /-- On the way to the table of a header. -/
  | passing
  /-- By a dotted key. -/
  | dotted
  deriving DecidableEq, Repr

inductive Item where
  | value (value : Value)
  | table (origin : Origin) (entries : List (String × Item))
  | tables (elements : List (List (String × Item)))
  deriving Inhabited

abbrev Entries := List (String × Item)

/-- Puts the item in the place of the key, or behind all others if the key is new. -/
def Entries.put (key : String) (item : Item) : Entries → Entries
  | [] => [(key, item)]
  | (k, i) :: rest => if k = key then (key, item) :: rest else (k, i) :: Entries.put key item rest

def Entries.remove (key : String) (entries : Entries) : Entries :=
  entries.filter fun entry => entry.1 ≠ key

/-- Changes the table that a header path leads to. Of an array of tables it is the last one. -/
def Entries.descend {α : Type} (change : Entries → Option (α × Entries)) :
    List String → Entries → Option (α × Entries)
  | [], entries => change entries
  | key :: path, entries =>
      match entries.lookup key with
      | none => do
          let (result, inner) ← Entries.descend change path []
          return (result, Entries.put key (.table .passing inner) entries)
      | some (.table origin inner) => do
          let (result, inner) ← Entries.descend change path inner
          return (result, Entries.put key (.table origin inner) entries)
      | some (.tables elements) => do
          let (result, inner) ← Entries.descend change path (elements.getLastD [])
          return (result, Entries.put key (.tables (elements.dropLast ++ [inner])) entries)
      | some (.value _) => none

/-- Adds a new key under a dotted path. The tables on the path may not have a header, and the last
one has to be made by a dotted key. -/
def Entries.addDotted (name : String) (value : Value) :
    List String → Entries → Option Entries
  | [], entries =>
      match entries.lookup name with
      | none => some (Entries.put name (.value value) entries)
      | some _ => none
  | key :: path, entries =>
      match entries.lookup key with
      | none => do
          let inner ← Entries.addDotted name value path []
          return Entries.put key (.table .dotted inner) entries
      | some (.table origin inner) =>
          if origin = .header ∨ (path = [] ∧ origin ≠ .dotted) then none
          else do
            let inner ← Entries.addDotted name value path inner
            return Entries.put key (.table origin inner) entries
      | some (.tables elements) =>
          if path = [] then none
          else do
            let inner ← Entries.addDotted name value path (elements.getLastD [])
            return Entries.put key (.tables (elements.dropLast ++ [inner])) entries
      | some (.value _) => none

/-- Adds a key and value as they are written. -/
def Entries.add (parts : List String) (value : Value) (entries : Entries) : Option Entries := do
  let name ← parts.getLast?
  Entries.addDotted name value parts.dropLast entries

mutual

def Item.freeze : Item → Value
  | .value value => value
  | .table _ entries => .table (freezeEntries entries)
  | .tables elements => .array (freezeElements elements)
termination_by structural item => item

def freezeEntries : List (String × Item) → List (String × Value)
  | [] => []
  | (key, item) :: rest => (key, item.freeze) :: freezeEntries rest
termination_by structural entries => entries

def freezeElements : List (List (String × Item)) → List Value
  | [] => []
  | entries :: rest => .table (freezeEntries entries) :: freezeElements rest
termination_by structural elements => elements

end

end IdlTypings.Toml
