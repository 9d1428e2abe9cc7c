import IdlTypings.Proofs.Conversion.Contribution

/-!
# Definitions are converted one by one

A conversion carries its diagnostics from one definition to the next, and nothing that it carries is
read again: going on with more definitions adds what these would give by themselves. So the result
is put together from one part for each definition, in the order of the definitions.
-/

namespace IdlTypings

attribute [ext] Converted

instance : Append Converted :=
  ⟨fun done more => ⟨done.items ++ more.items, done.diagnostics ++ more.diagnostics⟩⟩

namespace Converted

@[simp]
theorem items_append (done more : Converted) : (done ++ more).items = done.items ++ more.items :=
  rfl

@[simp]
theorem diagnostics_append (done more : Converted) :
    (done ++ more).diagnostics = done.diagnostics ++ more.diagnostics := rfl

theorem append_assoc (a b c : Converted) : a ++ b ++ c = a ++ (b ++ c) := by
  ext1 <;> simp

end Converted

end IdlTypings

namespace IdlTypings.Conversion

/-- What a definition gives by itself: an item under its name, or, if it is of an unknown kind, a
diagnostic and nothing else. -/
inductive ConvertedAlone : Idl.Root → Converted → Prop where
  | item {root : Idl.Root} {source : String} (declarations : List Ts.Declaration)
      (diagnostics : List Diagnostic) :
      root.name? = some source → ConvertedAlone root ⟨[⟨source, declarations⟩], diagnostics⟩
  | skipped (kind : String) (raw : Json.Value) :
      ConvertedAlone (.unsupported kind raw) ⟨[], [⟨.definition, none, raw.dump⟩]⟩

theorem convertedAlone (mode : Mode) (root : Idl.Root) :
    ConvertedAlone root (convert mode [root]) := by
  cases root with
  | unsupported kind raw => exact .skipped kind raw
  | definition kind d => exact .item _ _ rfl
  | includes target mixin => exact .item _ _ rfl
  | enumeration name values => exact .item _ _ rfl
  | callback name returns arguments => exact .item _ _ rfl
  | typedef name type => exact .item _ _ rfl

/-- Nothing but a definition of an unknown kind is left out. -/
theorem ConvertedAlone.items_eq_nil_iff {root : Idl.Root} {alone : Converted}
    (h : ConvertedAlone root alone) :
    alone.items = [] ↔ ∃ kind raw, root = .unsupported kind raw := by
  cases h with
  | item declarations diagnostics hname =>
      refine ⟨fun h => absurd h (List.cons_ne_nil _ _), ?_⟩
      rintro ⟨kind, raw, rfl⟩
      cases hname
  | skipped kind raw => exact ⟨fun _ => ⟨kind, raw, rfl⟩, fun _ => rfl⟩

theorem convert_append (mode : Mode) (xs ys : List Idl.Root) :
    convert mode (xs ++ ys) = convert mode xs ++ convert mode ys := by
  ext1
  · simp only [items_convert, List.filterMap_append, Converted.items_append]
  · simp only [diagnostics_convert, List.flatMap_append, Converted.diagnostics_append]

/-- The diagnostics of a program, one group for each definition. -/
def diagnosticGroups (mode : Mode) (roots : List Idl.Root) : List (List Diagnostic) :=
  roots.map fun root => (convert mode [root]).diagnostics

theorem flatten_diagnosticGroups (mode : Mode) (roots : List Idl.Root) :
    (diagnosticGroups mode roots).flatten = (convert mode roots).diagnostics := by
  induction roots with
  | nil => rfl
  | cons root rest ih =>
      rw [← List.singleton_append, convert_append, Converted.diagnostics_append, ← ih]
      rfl

theorem perm_items_convert (mode : Mode) {xs ys : List Idl.Root} (h : xs.Perm ys) :
    (convert mode xs).items.Perm (convert mode ys).items := by
  simp only [items_convert]
  exact h.filterMap _

/-- A definition that is taken out takes with it what it gave, and nothing else. -/
theorem exists_convert_insert (mode : Mode) (root : Idl.Root) (xs ys : List Idl.Root) :
    ∃ before after : Converted,
      convert mode (xs ++ root :: ys) = before ++ convert mode [root] ++ after ∧
        convert mode (xs ++ ys) = before ++ after := by
  refine ⟨convert mode xs, convert mode ys, ?_, convert_append mode xs ys⟩
  rw [Converted.append_assoc, ← convert_append, ← convert_append, List.singleton_append]

/-- A type of unknown form and a definition of an unknown kind, both of which are noted. -/
def oddRoots : List Idl.Root :=
  [.callback "Odd" (.unsupported (.number (.integer 7))) [],
    .unsupported "module" (.object [("type", .string "module")])]

end IdlTypings.Conversion
