import IdlTypings.Proofs.Conversion.Merging
import Mathlib.Data.List.Basic

/-!
# The shape of a definition

Whether a definition becomes an alias, and what its body extends, can be read off the definition.
Its bases are the one it inherits from and one collection for each set or map among its members. Its
body is empty if all of its members are silent, which is a matter of their kinds, their names and
their number of types or arguments.
-/

namespace IdlTypings.Idl

/-- The collection that a set or a map stands for. -/
def Member.collection? (owner : String) : Member → Option Ts.TypeExpr
  | .setlike element readonly =>
      some (.reference (if readonly then "ReadonlySet" else "Set")
        [(element.toTs (some owner)).result])
  | .maplike key value readonly =>
      some (.reference (if readonly then "ReadonlyMap" else "Map")
        [(key.toTs (some owner)).result, (value.toTs (some owner)).result])
  | _ => none

def Definition.bases (d : Definition) : List Ts.TypeExpr :=
  d.inheritance.toList.map Ts.TypeExpr.name ++ d.members.filterMap (Member.collection? d.name)

/-- The members of `d` that leave nothing in its body. -/
inductive Silent (d : Definition) : Member → Prop where
  | setlike (element : TypeExpr) (readonly : Bool) : Silent d (.setlike element readonly)
  | maplike (key value : TypeExpr) (readonly : Bool) : Silent d (.maplike key value readonly)
  | unsupported (kind : String) (raw : Json.Value) : Silent d (.unsupported kind raw)
  | values (value : TypeExpr) (async : Bool) :
      (∀ m ∈ d.members, m.isIndexedGetter = false) → Silent d (.iterable [value] async)
  | iterable {types : List TypeExpr} (async : Bool) :
      types.length ≠ 1 → types.length ≠ 2 → Silent d (.iterable types async)
  | operation {op : Operation} : op.name = "" →
      ¬(op.special = some .getter ∧ op.arguments.length = 1) →
      ¬(op.special = some .stringifier ∧ op.arguments.length = 0) → Silent d (.operation op)

def Definition.IsSilent (d : Definition) : Prop := ∀ m ∈ d.members, Silent d m

section Silence

theorem Operation.isSilent_iff {owner : String} (h : owner ≠ "") (op : Operation) :
    op.isSilent owner = true ↔
      op.name = "" ∧ ¬(op.special = some .getter ∧ op.arguments.length = 1) ∧
        ¬(op.special = some .stringifier ∧ op.arguments.length = 0) := by
  simp only [Operation.isSilent, Bool.and_eq_true, decide_eq_true_eq]
  split
  · rename_i key hspecial harguments
    refine iff_of_false (fun h => Bool.false_ne_true h.2) ?_
    rintro ⟨-, hgetter, -⟩
    exact hgetter ⟨hspecial, congrArg List.length harguments⟩
  · rename_i hspecial harguments
    refine iff_of_false (fun h => Bool.false_ne_true h.2) ?_
    rintro ⟨-, -, hstringifier⟩
    exact hstringifier ⟨hspecial, congrArg List.length harguments⟩
  · rename_i hgetter hstringifier
    constructor
    · rintro ⟨⟨-, hname⟩, -⟩
      refine ⟨hname, ?_, ?_⟩
      · rintro ⟨hspecial, hlength⟩
        obtain ⟨key, hkey⟩ := List.length_eq_one_iff.mp hlength
        exact hgetter key hspecial hkey
      · rintro ⟨hspecial, hlength⟩
        exact hstringifier hspecial (List.length_eq_zero_iff.mp hlength)
    · rintro ⟨hname, -, -⟩
      exact ⟨⟨hname ▸ h.symm, hname⟩, rfl⟩

variable {d : Definition}

theorem silent_operation_iff (h : d.name ≠ "") (op : Operation) :
    Silent d (.operation op) ↔ op.isSilent d.name = true := by
  rw [Operation.isSilent_iff h]
  constructor
  · intro hsilent
    cases hsilent with
    | operation hname hgetter hstringifier => exact ⟨hname, hgetter, hstringifier⟩
  · rintro ⟨hname, hgetter, hstringifier⟩
    exact .operation hname hgetter hstringifier

theorem silent_iterable_iff (types : List TypeExpr) (async : Bool) :
    Silent d (.iterable types async) ↔ Member.isSilent d (.iterable types async) = true := by
  match types with
  | [] => exact iff_of_true (.iterable async (by simp) (by simp)) rfl
  | [value] =>
      have hisSilent : Member.isSilent d (.iterable [value] async) = true ↔
          ∀ m ∈ d.members, m.isIndexedGetter = false := by
        simp [Member.isSilent]
      rw [hisSilent]
      refine ⟨?_, .values value async⟩
      intro hsilent
      cases hsilent with
      | values _ _ hnone => exact hnone
      | iterable _ hone _ => exact absurd rfl hone
  | [key, value] =>
      refine iff_of_false ?_ Bool.false_ne_true
      intro hsilent
      cases hsilent with
      | iterable _ _ htwo => exact htwo rfl
  | _ :: _ :: _ :: _ => exact iff_of_true (.iterable async (by simp) (by simp)) rfl

theorem silent_iff (h : d.name ≠ "") (m : Member) : Silent d m ↔ m.isSilent d = true := by
  cases m with
  | operation op => exact silent_operation_iff h op
  | iterable types async => exact silent_iterable_iff types async
  | setlike element readonly => exact iff_of_true (.setlike element readonly) rfl
  | maplike key value readonly => exact iff_of_true (.maplike key value readonly) rfl
  | unsupported kind raw => exact iff_of_true (.unsupported kind raw) rfl
  | attr a => exact iff_of_false nofun Bool.false_ne_true
  | construct arguments => exact iff_of_false nofun Bool.false_ne_true
  | field name type required => exact iff_of_false nofun Bool.false_ne_true
  | constant name type => exact iff_of_false nofun Bool.false_ne_true

end Silence

end IdlTypings.Idl

namespace IdlTypings.Conversion

section Content

variable (mode : Mode) (d : Idl.Definition)

theorem inheritedBases_eq (m : Idl.Member) :
    inheritedBases mode d m = (m.collection? d.name).toList := by
  cases m with
  | setlike element readonly => rfl
  | maplike key value readonly => rfl
  | _ => exact List.length_eq_zero_iff.mp (length_inheritedBases mode d _)

theorem allBases_eq_bases : allBases mode d = d.bases := by
  simp only [allBases, Idl.Definition.bases, List.filterMap_eq_flatMap_toList,
    funext (inheritedBases_eq mode d)]

theorem flatMap_contribution_eq_nil_iff_isSilent (h : d.name ≠ "") :
    d.members.flatMap (contribution mode d) = [] ↔ d.IsSilent := by
  simp only [List.flatMap_eq_nil_iff, contribution_eq_nil_iff, Idl.Definition.IsSilent,
    Idl.silent_iff h]

end Content

theorem items_convert_definition (mode : Mode) (kind : Idl.DefinitionKind) (d : Idl.Definition) :
    (convert mode [.definition kind d]).items =
      [⟨d.name, shape mode d.name d.bases (d.members.flatMap (contribution mode d)) ::
        windowGlobals d⟩] := by
  rw [← allBases_eq_bases mode, ← result_definitionDeclarations, items_convert]
  rfl

/-- **The shape of a definition.** The main declaration of a definition with a name is an alias of
its base if it has exactly one and all of its members are silent. Otherwise it is an interface, or
in runtime mode a class, that extends its bases, with an empty body exactly if all of its members
are silent. -/
theorem mainDeclaration_of_definition (mode : Mode) (kind : Idl.DefinitionKind)
    {d : Idl.Definition} (hname : d.name ≠ "") :
    ∃ main, (convert mode [.definition kind d]).items = [⟨d.name, main :: windowGlobals d⟩] ∧
      (main.kind = .aliasKind ↔ d.bases.length = 1 ∧ d.IsSilent) ∧
      (∀ base, d.bases = [base] → d.IsSilent → main = .aliasDecl d.name base) ∧
      (¬(d.bases.length = 1 ∧ d.IsSilent) → ∃ members,
        main = bodyDeclaration mode d.name d.bases members ∧ (members = [] ↔ d.IsSilent)) := by
  have hsilent := flatMap_contribution_eq_nil_iff_isSilent mode d hname
  refine ⟨_, items_convert_definition mode kind d, ?_, ?_, ?_⟩
  · rw [kind_shape, ← hsilent]
    split
    · rename_i halias
      exact iff_of_true rfl halias
    · rename_i hbody
      refine iff_of_false ?_ hbody
      cases mode <;> exact nofun
  · intro base hbase hd
    rw [hbase, hsilent.mpr hd]
    rfl
  · intro hbody
    rw [← hsilent] at hbody
    exact ⟨_, shape_of_body hbody, hsilent⟩

/-- A map with values that cannot be iterated, an operation without a name and one member of an
unknown kind, all of which are silent. -/
def highlightRegistry (base : Option String) : Idl.Definition where
  name := "HighlightRegistry"
  inheritance := base
  members := [
    .maplike (.named "DOMString" false) (.named "Highlight" true) true,
    .iterable [.named "Highlight" false] false,
    .operation ⟨"", [⟨"key", .named "DOMString" false, false, false⟩], .named "void" false,
      some .deleter⟩,
    .unsupported "mystery" (.object [("type", .string "mystery")])]
  extAttrs := .ofList [("Exposed", ["Window"])]

theorem isSilent_highlightRegistry (base : Option String) : (highlightRegistry base).IsSilent := by
  have hname : (highlightRegistry base).name ≠ "" := by
    change "HighlightRegistry" ≠ ""
    decide
  have hsilent : (highlightRegistry base).members.all
      (Idl.Member.isSilent (highlightRegistry base)) = true := rfl
  intro m hm
  exact (Idl.silent_iff hname m).mpr (List.all_eq_true.mp hsilent m hm)

theorem mainDeclaration_highlightRegistry :
    "HighlightRegistry" ≠ "" ∧
      (convert .runtime [.definition .interface (highlightRegistry none)]).items =
        [⟨"HighlightRegistry",
          [.aliasDecl "HighlightRegistry"
              (.reference "ReadonlyMap" [.string, .orNull (.name "Highlight")]),
            .variableDecl "HighlightRegistry" (.name "HighlightRegistry") false]⟩] ∧
      (convert .runtime [.definition .interface (highlightRegistry "Registry")]).items =
        [⟨"HighlightRegistry",
          [.classDecl "HighlightRegistry"
              [.name "Registry", .reference "ReadonlyMap" [.string, .orNull (.name "Highlight")]] [],
            .variableDecl "HighlightRegistry" (.name "HighlightRegistry") false]⟩] := by
  have hname : "HighlightRegistry" ≠ "" := by decide
  refine ⟨hname, ?_, ?_⟩
  · obtain ⟨main, hitems, -, halias, -⟩ :=
      mainDeclaration_of_definition .runtime .interface (d := highlightRegistry none) hname
    rw [halias _ rfl (isSilent_highlightRegistry none)] at hitems
    exact hitems
  · obtain ⟨main, hitems, -, -, hbody⟩ :=
      mainDeclaration_of_definition .runtime .interface (d := highlightRegistry "Registry") hname
    have hbases : (highlightRegistry "Registry").bases.length ≠ 1 := by decide
    obtain ⟨members, rfl, hmembers⟩ := hbody fun h => hbases h.1
    rw [hmembers.mpr (isSilent_highlightRegistry "Registry")] at hitems
    exact hitems

end IdlTypings.Conversion
