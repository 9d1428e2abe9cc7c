import IdlTypings.Proofs.Conversion.Merging
import IdlTypings.Proofs.Report.Lines
import Mathlib.Algebra.GroupWithZero.Nat

/-!
# The census of a report

The table of a report counts the declarations by their kind: the kinds that occur have a row, in the
order of their labels, and the numbers add up to all declarations. After a conversion these are one
main declaration for each definition that was converted, and the window's variables.
-/

namespace IdlTypings.Conversion

/-- Whether the window has a variable for what is defined. -/
def hasGlobal : Idl.Root → Bool
  | .definition _ d => d.extAttrs.isExposedOn "Window"
  | _ => false

theorem kinds_convert (mode : Mode) (roots : List Idl.Root) :
    (convert mode roots).declarations.map Ts.Declaration.kind =
      roots.flatMap (declaredKinds mode) := by
  have hroot : ∀ root, (labelsOf mode root).map Prod.snd = declaredKinds mode root := by
    intro root
    cases root with
    | definition kind d => simp [labelsOf, Idl.Root.name?, Function.comp_def]
    | _ => rfl
  have hlabels := congrArg (List.map Prod.snd) (labels_convert mode roots)
  rw [List.map_map, List.map_flatMap] at hlabels
  simp only [hroot] at hlabels
  exact hlabels

theorem length_declaredKinds (mode : Mode) (root : Idl.Root) :
    (declaredKinds mode root).length =
      (item? mode root).result.toList.length + if hasGlobal root then 1 else 0 := by
  cases root with
  | definition kind d =>
      rw [declaredKinds, hasGlobal]
      cases d.extAttrs.isExposedOn "Window" <;> rfl
  | _ => rfl

theorem count_variableKind_declaredKinds (mode : Mode) (root : Idl.Root) :
    (declaredKinds mode root).count .variableKind = if hasGlobal root then 1 else 0 := by
  cases root with
  | definition kind d =>
      rw [declaredKinds, hasGlobal, List.count_cons_of_ne (bodyKind_ne_variableKind mode d)]
      cases d.extAttrs.isExposedOn "Window" <;> rfl
  | _ => rfl

theorem length_flatMap_declaredKinds (mode : Mode) (roots : List Idl.Root) :
    (roots.flatMap (declaredKinds mode)).length =
      (roots.filterMap fun root => (item? mode root).result).length + roots.countP hasGlobal := by
  induction roots with
  | nil => rfl
  | cons root rest ih =>
      rw [List.flatMap_cons, List.length_append, length_declaredKinds, ih, List.countP_cons]
      cases hitem : (item? mode root).result with
      | none =>
          simp only [List.filterMap_cons, hitem, Option.toList_none, List.length_nil]
          omega
      | some item =>
          simp only [List.filterMap_cons, hitem, Option.toList_some, List.length_cons,
            List.length_nil]
          omega

/-- One main declaration for each item, and the variables. -/
theorem length_declarations_convert (mode : Mode) (roots : List Idl.Root) :
    (convert mode roots).declarations.length =
      (convert mode roots).items.length + roots.countP hasGlobal := by
  rw [← List.length_map Ts.Declaration.kind, kinds_convert, items_convert,
    length_flatMap_declaredKinds]

theorem count_variableKind_convert (mode : Mode) (roots : List Idl.Root) :
    ((convert mode roots).declarations.map Ts.Declaration.kind).count .variableKind =
      roots.countP hasGlobal := by
  rw [kinds_convert]
  induction roots with
  | nil => rfl
  | cons root rest ih =>
      rw [List.flatMap_cons, List.count_append, count_variableKind_declaredKinds, ih,
        List.countP_cons, Nat.add_comm]

end IdlTypings.Conversion

namespace IdlTypings.Report

open Conversion (Mode hasGlobal)
open Text (piecesOf)
open Ts (Declaration DeclarationKind)

/-- The bytes of a text in UTF-8. -/
def bytes (text : String) : List UInt8 := text.toUTF8.data.toList

/-- The rows of a table that counts these declarations. -/
structure IsCensus (declarations : List Declaration) (rows : List (DeclarationKind × Nat)) :
    Prop where
  occurs : ∀ kind, kind ∈ rows.map Prod.fst ↔ kind ∈ declarations.map Declaration.kind
  counted : ∀ row ∈ rows, row.2 = (declarations.map Declaration.kind).count row.1
  ascending : (rows.map fun row => bytes row.1.label).Pairwise (· < ·)
  total : (rows.map Prod.snd).sum = declarations.length

theorem count_eq (declarations : List Declaration) (kind : DeclarationKind) :
    count declarations kind = (declarations.map Declaration.kind).count kind := by
  rw [count, List.count, List.countP_map]
  rfl

/-- Rows without a number add nothing. -/
theorem sum_filter_pos (rows : List (DeclarationKind × Nat)) :
    ((rows.filter fun row => 0 < row.2).map Prod.snd).sum = (rows.map Prod.snd).sum := by
  induction rows with
  | nil => rfl
  | cons row rest ih =>
      rw [List.map_cons, List.sum_cons, ← ih, List.filter_cons]
      split
      · rfl
      · rename_i hzero
        rw [decide_eq_true_iff] at hzero
        omega

/-- Every declaration is counted under one kind. -/
theorem sum_counts (declarations : List Declaration) :
    (DeclarationKind.all.map (count declarations)).sum = declarations.length := by
  induction declarations with
  | nil => rfl
  | cons first rest ih =>
      simp only [DeclarationKind.all, List.map_cons, List.map_nil, List.sum_cons,
        List.sum_nil] at ih ⊢
      rw [List.length_cons, ← ih]
      simp only [count, List.countP_cons]
      cases first.kind <;> simp <;> omega

theorem ascending_labels :
    (DeclarationKind.all.map fun kind => bytes kind.label).Pairwise (· < ·) := by
  decide

theorem isCensus_census (declarations : List Declaration) :
    IsCensus declarations (census declarations) where
  occurs := by
    intro kind
    rw [← count_pos_iff, List.mem_map]
    constructor
    · rintro ⟨⟨kind, n⟩, hrow, rfl⟩
      obtain ⟨rfl, hpos⟩ := mem_census_iff.mp hrow
      exact hpos
    · intro hpos
      exact ⟨_, mem_census_iff.mpr ⟨rfl, hpos⟩, rfl⟩
  counted := by
    rintro ⟨kind, n⟩ hrow
    rw [← count_eq]
    exact (mem_census_iff.mp hrow).1
  ascending := by
    have hrows : (census declarations).Sublist
        (DeclarationKind.all.map fun kind => (kind, count declarations kind)) :=
      List.filter_sublist
    have hlabels := hrows.map fun row => bytes row.1.label
    rw [List.map_map] at hlabels
    exact ascending_labels.sublist hlabels
  total := by
    rw [census, sum_filter_pos, List.map_map]
    exact sum_counts declarations

theorem tableLines_eq_none_iff (declarations : List Declaration) :
    tableLines (census declarations) = ["None."] ↔ declarations = [] := by
  simp only [tableLines, List.isEmpty_iff, census_eq_nil_iff]
  split
  · rename_i hnone
    exact iff_of_true rfl hnone
  · rename_i hsome
    exact iff_of_false (by simp) hsome

end IdlTypings.Report
