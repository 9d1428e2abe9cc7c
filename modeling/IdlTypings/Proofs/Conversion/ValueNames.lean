import IdlTypings.Proofs.Conversion.Merging
import Mathlib.Data.List.Nodup

/-!
# Values under one name

A name can be declared as a value only once. The window's variable for a definition goes by the
name of the definition. In ambient mode it is the only value of that name, since an interface is
none. In runtime mode the body of the definition is a class, a value of the same name, unless the
definition collapses into an alias.
-/

namespace IdlTypings

/-- Interfaces and aliases are types and nothing else. -/
def Ts.DeclarationKind.isValue : Ts.DeclarationKind → Bool
  | .classKind | .variableKind | .functionKind | .namespaceKind => true
  | .interfaceKind | .aliasKind => false

/-- The names of the declarations that introduce a value, one for each declaration. -/
def Converted.valueNames (c : Converted) : List String :=
  (c.declarations.filter (·.kind.isValue)).map Ts.Declaration.name

end IdlTypings

namespace IdlTypings.Conversion

def valueNamesOf (mode : Mode) (root : Idl.Root) : List String :=
  ((labelsOf mode root).filter (·.2.isValue)).map Prod.fst

theorem valueNames_convert (mode : Mode) (roots : List Idl.Root) :
    (convert mode roots).valueNames = roots.flatMap (valueNamesOf mode) := by
  have hlabels : ∀ c : Converted,
      c.valueNames = ((c.declarations.map labelOf).filter (·.2.isValue)).map Prod.fst := by
    intro c
    rw [List.filter_map, List.map_map]
    rfl
  rw [hlabels, labels_convert, List.filter_flatMap, List.map_flatMap]
  rfl

theorem name?_of_mem_valueNamesOf {mode : Mode} {root : Idl.Root} {name : String}
    (h : name ∈ valueNamesOf mode root) : root.name? = some name := by
  obtain ⟨⟨name, kind⟩, hlabel, rfl⟩ := List.mem_map.mp h
  exact (mem_labelsOf_iff.mp (List.mem_of_mem_filter hlabel)).1

theorem disjoint_valueNamesOf (mode : Mode) {root other : Idl.Root}
    (h : ∀ name, root.name? = some name → ∀ name', other.name? = some name' → name ≠ name') :
    (valueNamesOf mode root).Disjoint (valueNamesOf mode other) := by
  intro name hroot hother
  exact h name (name?_of_mem_valueNamesOf hroot) name (name?_of_mem_valueNamesOf hother) rfl

/-! ### One root -/

/-- The class of the body, then the variable. -/
theorem valueNamesOf_definition (mode : Mode) (kind : Idl.DefinitionKind) (d : Idl.Definition) :
    valueNamesOf mode (.definition kind d) =
      (if mode = .ambient ∨ d.collapses = true then [] else [d.name]) ++
        if d.extAttrs.isExposedOn "Window" = true then [d.name] else [] := by
  simp only [valueNamesOf, labelsOf, declaredKinds, bodyKind, Idl.Root.name?, Option.toList_some,
    List.flatMap_singleton]
  cases mode <;> cases d.collapses <;> cases d.extAttrs.isExposedOn "Window" <;> rfl

theorem nodup_valueNamesOf_definition_iff (mode : Mode) (kind : Idl.DefinitionKind)
    (d : Idl.Definition) :
    (valueNamesOf mode (.definition kind d)).Nodup ↔
      mode = .ambient ∨ (d.extAttrs.isExposedOn "Window" = true → d.collapses = true) := by
  rw [valueNamesOf_definition]
  by_cases hnoClass : mode = .ambient ∨ d.collapses = true
  · rw [if_pos hnoClass, List.nil_append]
    apply iff_of_true
    · split
      · exact List.nodup_singleton d.name
      · exact List.nodup_nil
    · exact hnoClass.imp_right fun hcollapses _ => hcollapses
  · obtain ⟨hmode, hcollapses⟩ := not_or.mp hnoClass
    rw [if_neg hnoClass]
    by_cases hexposed : d.extAttrs.isExposedOn "Window" = true
    · rw [if_pos hexposed]
      apply iff_of_false
      · simp
      · rintro (hambient | halias)
        · exact hmode hambient
        · exact hcollapses (halias hexposed)
    · rw [if_neg hexposed]
      exact iff_of_true (List.nodup_singleton d.name) (.inr fun h => absurd h hexposed)

theorem nodup_valueNamesOf_iff (mode : Mode) (root : Idl.Root) :
    (valueNamesOf mode root).Nodup ↔
      mode = .ambient ∨ ∀ kind d, root = .definition kind d →
        d.extAttrs.isExposedOn "Window" = true → d.collapses = true := by
  cases root with
  | definition kind d =>
      rw [nodup_valueNamesOf_definition_iff]
      apply or_congr_right
      constructor
      · rintro h _ _ ⟨⟩
        exact h
      · intro h
        exact h kind d rfl
  | _ =>
      -- The other roots have types only.
      exact iff_of_true List.nodup_nil (.inr nofun)

/-! ### A program -/

theorem nodup_valueNames_iff_forall (mode : Mode) {roots : List Idl.Root}
    (hnames : (roots.filterMap Idl.Root.name?).Nodup) :
    (convert mode roots).valueNames.Nodup ↔ ∀ root ∈ roots, (valueNamesOf mode root).Nodup := by
  have hdisjoint : roots.Pairwise (Function.onFun List.Disjoint (valueNamesOf mode)) :=
    (List.pairwise_filterMap.mp hnames).imp (disjoint_valueNamesOf mode)
  rw [valueNames_convert, List.nodup_flatMap]
  exact and_iff_left hdisjoint

/-- **Values declared once.** Where the roots of a program have different names, no two values of
one name are declared in ambient mode, and in runtime mode exactly if every definition that the
window exposes collapses into an alias. -/
theorem nodup_valueNames_convert_iff (mode : Mode) {roots : List Idl.Root}
    (hnames : (roots.filterMap Idl.Root.name?).Nodup) :
    (convert mode roots).valueNames.Nodup ↔
      mode = .ambient ∨ ∀ kind d, .definition kind d ∈ roots →
        d.extAttrs.isExposedOn "Window" = true → d.collapses = true := by
  rw [nodup_valueNames_iff_forall mode hnames]
  simp only [nodup_valueNamesOf_iff]
  constructor
  · intro h
    cases mode with
    | ambient => exact .inl rfl
    | runtime =>
        right
        intro kind d hmem
        exact (h _ hmem).resolve_left nofun kind d rfl
  · rintro (hmode | h) root hroot
    · exact .inl hmode
    · right
      rintro kind d rfl
      exact h kind d hroot

/-- A map that the window exposes, which becomes an alias, next to a dictionary and a mixin. -/
def registryRoots : List Idl.Root :=
  [.definition .interface
      { name := "HighlightRegistry"
        inheritance := none
        members := [.maplike (.named "DOMString" false) (.named "Highlight" false) false]
        extAttrs := .ofList [("Exposed", ["Window"])] },
    .definition .dictionary
      { name := "EventInit"
        inheritance := none
        members := [.field "bubbles" (.named "boolean" false) false]
        extAttrs := .ofList [] },
    .includes "Document" "ParentNode"]

theorem nodup_valueNames_registryRoots :
    (registryRoots.filterMap Idl.Root.name?).Nodup ∧
      (convert .runtime registryRoots).valueNames.Nodup ∧
      (convert .runtime registryRoots).valueNames = ["HighlightRegistry", "EventInit"] := by
  have hnames : (registryRoots.filterMap Idl.Root.name?).Nodup := by decide
  refine ⟨hnames, (nodup_valueNames_convert_iff .runtime hnames).mpr (.inr ?_), rfl⟩
  intro kind d hmem hexposed
  simp only [registryRoots, List.mem_cons, Idl.Root.definition.injEq, List.not_mem_nil, or_false,
    reduceCtorEq] at hmem
  obtain ⟨-, rfl⟩ | ⟨-, rfl⟩ := hmem
  · rfl
  · exact absurd hexposed (by decide)

/-- An interface that the window exposes. -/
def navigatorRoots : List Idl.Root :=
  [.definition .interface
      { name := "Navigator"
        inheritance := none
        members := [.attr ⟨"onLine", .named "boolean" false, true, none⟩]
        extAttrs := .ofList [("Exposed", ["Window"])] }]

/-- In runtime mode different names are not enough: the class of an interface and the window's
variable for it are two values. -/
theorem not_forall_nodup_valueNames :
    ¬∀ (mode : Mode) (roots : List Idl.Root), (roots.filterMap Idl.Root.name?).Nodup →
      (convert mode roots).valueNames.Nodup := by
  intro h
  have hnodup : (convert .runtime navigatorRoots).valueNames.Nodup :=
    h .runtime navigatorRoots (by decide)
  have hnames : (convert .runtime navigatorRoots).valueNames = ["Navigator", "Navigator"] := rfl
  rw [hnames] at hnodup
  simp at hnodup

end IdlTypings.Conversion
