import IdlTypings.Proofs.Conversion.Contribution

/-!
# What a conversion skips

The constructs of a program that have no counterpart, listed by looking at the program alone: a
root or member of an unknown kind, and the leaves of unknown form in each type that is converted.
The diagnostics of a conversion are this list, in either mode.
-/

namespace IdlTypings.Idl

mutual

/-- The leaves of unknown form, from left to right. -/
def TypeExpr.unsupportedLeaves : TypeExpr → List Json.Value
  | .named _ _ => []
  | .generic _ args _ => unsupportedLeavesOf args
  | .union members _ => unsupportedLeavesOf members
  | .unsupported raw => [raw]
termination_by structural type => type

def unsupportedLeavesOf : List TypeExpr → List Json.Value
  | [] => []
  | type :: rest => type.unsupportedLeaves ++ unsupportedLeavesOf rest
termination_by structural types => types

end

def Member.isIndexedGetter : Member → Bool
  | .operation op => op.isIndexedGetter
  | _ => false

/-- The types of a member of `d` that are converted, in order. The key of an iterable over values
is that of the indexed getter, a name. -/
def Member.convertedTypes (d : Definition) : Member → List TypeExpr
  | .attr a => [a.type]
  | .field _ type _ => [type]
  | .constant _ type => [type]
  | .setlike element _ => [element]
  | .maplike key value _ => [key, value]
  | .iterable [key, value] _ => [key, value]
  | .iterable [value] _ => if d.members.any Member.isIndexedGetter then [value] else []
  | .iterable _ _ => []
  | .construct arguments => arguments.map Argument.type
  | .operation op =>
      if op.name = d.name then op.arguments.map Argument.type
      else if op.name ≠ "" then op.arguments.map Argument.type ++ [op.returns]
      else
        match op.special, op.arguments with
        | some .getter, [key] => [key.type, op.returns]
        | _, _ => []
  | .unsupported _ _ => []

end IdlTypings.Idl

namespace IdlTypings.Conversion

def skippedTypes (owner : String) (types : List Idl.TypeExpr) : List Diagnostic :=
  (types.flatMap Idl.TypeExpr.unsupportedLeaves).map fun raw => ⟨.type, some owner, raw.dump⟩

def skippedInMember (d : Idl.Definition) : Idl.Member → List Diagnostic
  | .unsupported _ raw => [⟨.member, some d.name, raw.dump⟩]
  | m => skippedTypes d.name (m.convertedTypes d)

def skippedInRoot : Idl.Root → List Diagnostic
  | .definition _ d => d.members.flatMap (skippedInMember d)
  | .includes _ _ => []
  | .enumeration _ _ => []
  | .callback name returns arguments =>
      skippedTypes name (arguments.map Idl.Argument.type ++ [returns])
  | .typedef name type => skippedTypes name [type]
  | .unsupported _ raw => [⟨.definition, none, raw.dump⟩]

end IdlTypings.Conversion

namespace IdlTypings.Idl

mutual

theorem TypeExpr.notes_toTs (owner : Option String) (type : TypeExpr) :
    (type.toTs owner).notes = type.unsupportedLeaves.map fun raw => ⟨.type, owner, raw.dump⟩ := by
  match type with
  | .named _ _ => rfl
  | .generic head args _ =>
      simp [TypeExpr.toTs, TypeExpr.unsupportedLeaves, TypeExpr.notes_listToTs owner args]
  | .union members _ =>
      simp [TypeExpr.toTs, TypeExpr.unsupportedLeaves, TypeExpr.notes_listToTs owner members]
  | .unsupported raw => rfl
termination_by structural type

theorem TypeExpr.notes_listToTs (owner : Option String) (types : List TypeExpr) :
    (TypeExpr.listToTs owner types).notes =
      (unsupportedLeavesOf types).map fun raw => ⟨.type, owner, raw.dump⟩ := by
  match types with
  | [] => rfl
  | type :: rest =>
      simp [TypeExpr.listToTs, unsupportedLeavesOf, TypeExpr.notes_toTs owner type,
        TypeExpr.notes_listToTs owner rest]
termination_by structural types

end

end IdlTypings.Idl

namespace IdlTypings.Conversion

theorem skippedTypes_append (owner : String) (types others : List Idl.TypeExpr) :
    skippedTypes owner (types ++ others) =
      skippedTypes owner types ++ skippedTypes owner others := by
  simp [skippedTypes]

theorem skippedTypes_singleton (owner : String) (type : Idl.TypeExpr) :
    skippedTypes owner [type] = (type.toTs owner).notes := by
  simp [skippedTypes, Idl.TypeExpr.notes_toTs]

theorem skippedTypes_pair (owner : String) (type other : Idl.TypeExpr) :
    skippedTypes owner [type, other] = (type.toTs owner).notes ++ (other.toTs owner).notes := by
  rw [← List.singleton_append, skippedTypes_append, skippedTypes_singleton, skippedTypes_singleton]

theorem notes_params (owner : String) (arguments : List Idl.Argument) :
    (params owner arguments).notes = skippedTypes owner (arguments.map Idl.Argument.type) := by
  simp [params, skippedTypes, Idl.Argument.toParam, Idl.TypeExpr.notes_toTs, List.flatMap_map,
    List.map_flatMap]

/-- A context knows the type of an index exactly if the definition has an indexed getter. -/
theorem isSome_indexType (d : Idl.Definition) :
    (Context.of d).indexType?.isSome = d.members.any Idl.Member.isIndexedGetter := by
  have hmember : ∀ m : Idl.Member, (memberIndexType? m).isSome = m.isIndexedGetter := by
    intro m
    cases m <;> rfl
  simp only [Context.of, List.isSome_findSome?, hmember]

theorem unsupportedLeaves_of_isNamed {name : String} {type : Idl.TypeExpr}
    (h : type.isNamed name = true) : type.unsupportedLeaves = [] := by
  cases type with
  | named => rfl
  | generic => simp [Idl.TypeExpr.isNamed] at h
  | union => simp [Idl.TypeExpr.isNamed] at h
  | unsupported => simp [Idl.TypeExpr.isNamed] at h

theorem argumentTypes_of_indexType {op : Idl.Operation} {key : Idl.TypeExpr}
    (h : op.indexType? = some key) :
    op.arguments.map Idl.Argument.type = [key] ∧ key.isNamed "unsigned long" = true := by
  simp only [Idl.Operation.indexType?] at h
  split at h
  · rename_i index _ harguments
    split at h
    · rename_i hnamed
      cases h
      exact ⟨congrArg (List.map Idl.Argument.type) harguments, hnamed⟩
    · cases h
  · cases h

theorem isNamed_of_indexType {d : Idl.Definition} {key : Idl.TypeExpr}
    (h : (Context.of d).indexType? = some key) : key.isNamed "unsigned long" = true := by
  obtain ⟨m, -, hm⟩ := List.exists_of_findSome?_eq_some h
  cases m with
  | operation op => exact (argumentTypes_of_indexType hm).2
  | _ => cases hm

/-- The key of values by index is a name, so nothing is skipped in it. -/
theorem notes_indexType {d : Idl.Definition} {key : Idl.TypeExpr} (owner : Option String)
    (h : (Context.of d).indexType? = some key) : (key.toTs owner).notes = [] := by
  have hnamed := isNamed_of_indexType h
  rw [Idl.TypeExpr.notes_toTs, unsupportedLeaves_of_isNamed hnamed, List.map_nil]

section Members

variable (mode : Mode) (d : Idl.Definition)

theorem notes_iterableBlock (types : List Idl.TypeExpr) (async : Bool) :
    (iterableBlock (.of d) types async).notes =
      skippedTypes d.name (Idl.Member.convertedTypes d (.iterable types async)) := by
  match types with
  | [] => rfl
  | [value] =>
      rw [Idl.Member.convertedTypes, ← isSome_indexType]
      cases hkey : (Context.of d).indexType? with
      | none => simp [iterableBlock, hkey, skippedTypes]
      | some key =>
          rw [Option.isSome_some, if_pos rfl, skippedTypes_singleton]
          simp only [iterableBlock, hkey, Noted.notes_bind, Noted.notes_pure, List.append_nil,
            notes_indexType _ hkey, List.nil_append]
          rfl
  | [key, value] =>
      refine Eq.trans ?_ (skippedTypes_pair d.name key value).symm
      simp only [iterableBlock, Noted.notes_bind, Noted.notes_pure, List.append_nil]
      rfl
  | _ :: _ :: _ :: _ => rfl

theorem notes_propertyBlock (name : String) (type : Idl.TypeExpr) (optional readonly : Bool) :
    (propertyBlock (.of d) name type optional readonly).notes = skippedTypes d.name [type] := by
  rw [skippedTypes_singleton]
  exact List.append_nil _

theorem notes_constructBlock (arguments : List Idl.Argument) :
    (constructBlock mode (.of d) arguments).notes =
      skippedTypes d.name (arguments.map Idl.Argument.type) := by
  rw [← notes_params]
  exact List.append_nil _

theorem notes_methodBlock (op : Idl.Operation) :
    (methodBlock (.of d) op).notes =
      skippedTypes d.name (op.arguments.map Idl.Argument.type ++ [op.returns]) := by
  rw [skippedTypes_append, ← notes_params, skippedTypes_singleton]
  simp only [methodBlock, Noted.notes_bind, Noted.notes_pure, List.append_nil]
  rfl

theorem notes_anonymousBlock (op : Idl.Operation) :
    (anonymousBlock (.of d) op).notes =
      match op.special, op.arguments with
      | some .getter, [key] => skippedTypes d.name [key.type, op.returns]
      | _, _ => [] := by
  unfold anonymousBlock
  split
  · rename_i key hspecial harguments
    rw [hspecial, harguments]
    refine Eq.trans ?_ (skippedTypes_pair d.name key.type op.returns).symm
    simp only [Noted.notes_bind, Noted.notes_pure, List.append_nil]
    rfl
  · rename_i hspecial harguments
    rw [hspecial, harguments]
    rfl
  · rename_i hgetter _
    split
    · rename_i key hspecial harguments
      exact absurd harguments (hgetter key hspecial)
    · rfl

theorem notes_operationBlock (op : Idl.Operation) :
    (operationBlock mode (.of d) op).notes =
      skippedTypes d.name (Idl.Member.convertedTypes d (.operation op)) := by
  simp only [operationBlock, Idl.Member.convertedTypes]
  by_cases howner : op.name = d.name
  · have hctx : op.name = (Context.of d).owner := howner
    rw [if_pos hctx, if_pos howner, notes_constructBlock]
  · have hctx : ¬op.name = (Context.of d).owner := howner
    rw [if_neg hctx, if_neg howner]
    by_cases hname : op.name = ""
    · rw [if_pos hname, if_neg (not_not_intro hname), notes_anonymousBlock]
      split <;> rfl
    · rw [if_neg hname, if_pos hname, notes_methodBlock]

theorem notes_memberBlock (m : Idl.Member) :
    (memberBlock mode (.of d) m).notes = skippedInMember d m := by
  cases m with
  | attr a =>
      exact (List.append_nil _).trans (skippedTypes_singleton d.name a.type).symm
  | operation op => exact notes_operationBlock mode d op
  | construct arguments => exact notes_constructBlock mode d arguments
  | field name type required => exact notes_propertyBlock d name type _ _
  | constant name type => exact notes_propertyBlock d name type _ _
  | iterable types async => exact notes_iterableBlock d types async
  | setlike element readonly =>
      exact (List.append_nil _).trans (skippedTypes_singleton d.name element).symm
  | maplike key value readonly =>
      refine Eq.trans ?_ (skippedTypes_pair d.name key value).symm
      simp only [memberBlock, mapBlock, Noted.notes_bind, Noted.notes_pure, List.append_nil]
      rfl
  | unsupported kind raw => rfl

end Members

theorem notes_item (mode : Mode) (root : Idl.Root) :
    (item? mode root).notes = skippedInRoot root := by
  cases root with
  | definition kind d =>
      simp only [item?, Noted.notes_bind, Noted.notes_pure, List.append_nil,
        notes_definitionDeclarations, notes_memberBlock, skippedInRoot]
  | includes target mixin => rfl
  | enumeration name values => rfl
  | callback name returns arguments =>
      rw [skippedInRoot, skippedTypes_append, ← notes_params, skippedTypes_singleton]
      simp only [item?, callbackAlias, Noted.notes_bind, Noted.notes_pure, List.append_nil]
  | typedef name type =>
      rw [skippedInRoot, skippedTypes_singleton]
      simp only [item?, typedefAlias, Noted.notes_bind, Noted.notes_pure, List.append_nil]
  | unsupported kind raw => rfl

/-- **The diagnostics of a conversion** are the constructs without counterpart that it meets, each
of them once, in the order of the program and under the name of its definition. -/
theorem diagnostics_convert_eq_skipped (mode : Mode) (roots : List Idl.Root) :
    (convert mode roots).diagnostics = roots.flatMap skippedInRoot := by
  simp only [diagnostics_convert, notes_item]

end IdlTypings.Conversion
