import IdlTypings.Json.Pretty

/-!
# Diagnostics

A construct that has no counterpart is skipped and noted. `Noted` carries a result together with
what was noted on the way, in order.
-/

namespace IdlTypings

inductive Construct where
  | definition
  | member
  | type
  deriving DecidableEq, Repr

/-- Definitions and types share one message. -/
def Construct.message : Construct → String
  | .definition => "Unsupported IDL type"
  | .member => "Unsupported IDL member"
  | .type => "Unsupported IDL type"

/-- What could not be converted, in which definition, and the JSON text of it. -/
structure Diagnostic where
  construct : Construct
  owner : Option String
  dump : String
  deriving DecidableEq, Repr

def Diagnostic.unsupported (construct : Construct) (owner : Option String) (raw : Json.Value) :
    Diagnostic :=
  ⟨construct, owner, raw.dump⟩

def Diagnostic.text (d : Diagnostic) : String :=
  match d.owner with
  | some owner => d.construct.message ++ " in `" ++ owner ++ "`"
  | none => d.construct.message

structure Noted (α : Type) where
  result : α
  notes : List Diagnostic

namespace Noted

variable {α β : Type}

instance : Monad Noted where
  pure a := ⟨a, []⟩
  bind x f :=
    let y := f x.result
    ⟨y.result, x.notes ++ y.notes⟩

@[simp]
theorem result_pure (a : α) : (pure a : Noted α).result = a := rfl

@[simp]
theorem notes_pure (a : α) : (pure a : Noted α).notes = [] := rfl

@[simp]
theorem result_bind (x : Noted α) (f : α → Noted β) : (x >>= f).result = (f x.result).result := rfl

@[simp]
theorem notes_bind (x : Noted α) (f : α → Noted β) :
    (x >>= f).notes = x.notes ++ (f x.result).notes := rfl

@[simp]
theorem result_map (f : α → β) (x : Noted α) : (f <$> x).result = f x.result := rfl

@[simp]
theorem notes_map (f : α → β) (x : Noted α) : (f <$> x).notes = x.notes := by
  change x.notes ++ [] = x.notes
  simp

/-- A result that is degraded because of `diagnostic`. -/
def skip (result : α) (diagnostic : Diagnostic) : Noted α := ⟨result, [diagnostic]⟩

/-- One result for each item, the notes in the order of the items. -/
def each (f : α → Noted β) : List α → Noted (List β)
  | [] => pure []
  | a :: rest => do
      let b ← f a
      let bs ← each f rest
      return b :: bs

@[simp]
theorem result_each (f : α → Noted β) (items : List α) :
    (each f items).result = items.map fun a => (f a).result := by
  induction items with
  | nil => rfl
  | cons a rest ih => simp [each, ih]

@[simp]
theorem notes_each (f : α → Noted β) (items : List α) :
    (each f items).notes = items.flatMap fun a => (f a).notes := by
  induction items with
  | nil => rfl
  | cons a rest ih => simp [each, ih]

end Noted

end IdlTypings
