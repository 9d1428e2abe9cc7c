import IdlTypings.Proofs.Conversion.Contribution
import Mathlib.Data.List.Forall2

/-!
# The two modes in lock step

Ambient and runtime mode skip the same constructs and declare the same names in the same order.
Where ambient mode has an interface with members of its own, runtime mode has a class: its
attributes gain accessors, its construct signatures become constructors, and nothing else changes.
-/

namespace IdlTypings.Conversion

/-- Whether a member constructs, in the words of an interface or of a class. -/
def isConstruct : Ts.Member → Bool
  | .constructSignature _ _ => true
  | .classConstructor _ => true
  | _ => false

/-- How the block of a member changes from ambient to runtime mode in the definition `owner`. -/
inductive BlockPair (owner : String) :
    Idl.Member → List Ts.Member → List Ts.Member → Prop where
  | attr (a : Idl.Attribute) (type : Ts.TypeExpr) (optional readonly static : Bool) :
      BlockPair owner (.attr a)
        [.property ⟨.identifier a.name, type, optional, readonly, static⟩]
        [.method ⟨.identifier ("get_" ++ a.name), [], type, static⟩,
          .method
            ⟨.identifier ("set_" ++ a.name), [⟨"value", type, false, false⟩], .void, static⟩,
          .property ⟨.identifier a.name, type, optional, readonly, static⟩]
  | construct (m : Idl.Member) (params : List Ts.Param) :
      (∀ a, m ≠ .attr a) →
      BlockPair owner m [.constructSignature params (.name owner)] [.classConstructor params]
  | same (m : Idl.Member) (block : List Ts.Member) :
      (∀ a, m ≠ .attr a) →
      (∀ member ∈ block, isConstruct member = false) →
      BlockPair owner m block block

/-- How a declaration of a root changes from ambient to runtime mode. -/
inductive DeclarationPair : Idl.Root → Ts.Declaration → Ts.Declaration → Prop where
  | typeAlias (root : Idl.Root) (name : String) (type : Ts.TypeExpr) :
      DeclarationPair root (.aliasDecl name type) (.aliasDecl name type)
  | mixin (target mixin : String) :
      DeclarationPair (.includes target mixin)
        (.interfaceDecl target [.name mixin] []) (.interfaceDecl target [.name mixin] [])
  | windowGlobal (kind : Idl.DefinitionKind) (d : Idl.Definition) :
      DeclarationPair (.definition kind d)
        (.variableDecl d.name (.name d.name) false) (.variableDecl d.name (.name d.name) false)
  | body (kind : Idl.DefinitionKind) (d : Idl.Definition) (bases : List Ts.TypeExpr) :
      (∀ m ∈ d.members,
        BlockPair d.name m (contribution .ambient d m) (contribution .runtime d m)) →
      DeclarationPair (.definition kind d)
        (.interfaceDecl d.name bases (d.members.flatMap (contribution .ambient d)))
        (.classDecl d.name bases (d.members.flatMap (contribution .runtime d)))

/-- The items of a program in ambient and in runtime mode, root by root. -/
inductive LockStep : List Idl.Root → List Item → List Item → Prop where
  | nil : LockStep [] [] []
  | skipped (kind : String) (raw : Json.Value) {roots : List Idl.Root} {as rs : List Item} :
      LockStep roots as rs → LockStep (.unsupported kind raw :: roots) as rs
  | item {root : Idl.Root} {source : String} {ambient runtime : List Ts.Declaration}
      {roots : List Idl.Root} {as rs : List Item} :
      root.name? = some source →
      List.Forall₂ (DeclarationPair root) ambient runtime →
      LockStep roots as rs →
      LockStep (root :: roots) (⟨source, ambient⟩ :: as) (⟨source, runtime⟩ :: rs)

section Blocks

variable (ctx : Context) (d : Idl.Definition) (m : Idl.Member)

theorem notes_memberBlock_runtime :
    (memberBlock .runtime ctx m).notes = (memberBlock .ambient ctx m).notes := by
  cases m with
  | operation op =>
      simp only [memberBlock, operationBlock]
      split <;> rfl
  | _ => rfl

theorem inheritedBases_runtime : inheritedBases .runtime d m = inheritedBases .ambient d m := by
  cases m with
  | operation op =>
      simp only [inheritedBases, memberBlock, operationBlock]
      split <;> rfl
  | _ => rfl

theorem allBases_runtime : allBases .runtime d = allBases .ambient d := by
  simp only [allBases, funext (inheritedBases_runtime d)]

/-- An operation with the name of its definition is as good as a constructor. -/
theorem memberBlock_operation_owner (mode : Mode) {op : Idl.Operation} (h : op.name = ctx.owner) :
    memberBlock mode ctx (.operation op) = memberBlock mode ctx (.construct op.arguments) := by
  simp only [memberBlock, operationBlock, if_pos h]

theorem blockPair_construct (arguments : List Idl.Argument) (h : ∀ a, m ≠ .attr a) :
    BlockPair d.name m (contribution .ambient d (.construct arguments))
      (contribution .runtime d (.construct arguments)) :=
  .construct m _ h

theorem blockPair_operation (op : Idl.Operation) :
    BlockPair d.name (.operation op) (contribution .ambient d (.operation op))
      (contribution .runtime d (.operation op)) := by
  have hattr : ∀ a, Idl.Member.operation op ≠ .attr a := by simp
  by_cases hname : op.name = d.name
  · simp only [contribution, memberBlock_operation_owner (.of d) _ hname]
    exact blockPair_construct d _ op.arguments hattr
  · have howner : ¬op.name = (Context.of d).owner := hname
    simp only [contribution, memberBlock, operationBlock, if_neg howner]
    refine .same _ _ hattr ?_
    split
    · unfold anonymousBlock
      split <;> simp [Block.ofMembers, method, isConstruct]
    · simp [methodBlock, Block.ofMembers, method, isConstruct]

theorem blockPair_iterable (types : List Idl.TypeExpr) (async : Bool) :
    BlockPair d.name (.iterable types async) (contribution .ambient d (.iterable types async))
      (contribution .runtime d (.iterable types async)) := by
  refine .same _ _ (by simp) ?_
  simp only [contribution, memberBlock, iterableBlock]
  split <;> simp [Block.ofMembers, Iteration.members, method, isConstruct]

theorem blockPair_property (name : String) (type : Idl.TypeExpr) (optional readonly : Bool)
    (h : ∀ a, m ≠ .attr a) :
    BlockPair d.name m (propertyBlock (.of d) name type optional readonly).result.members
      (propertyBlock (.of d) name type optional readonly).result.members := by
  refine .same m _ h ?_
  simp [propertyBlock, Block.ofMembers, isConstruct]

/-- The one place that compares the modes: what a member becomes in either of them. -/
theorem blockPair_contribution :
    BlockPair d.name m (contribution .ambient d m) (contribution .runtime d m) := by
  cases m with
  | attr a => exact .attr a _ _ _ _
  | operation op => exact blockPair_operation d op
  | construct arguments => exact blockPair_construct d _ arguments (by simp)
  | iterable types async => exact blockPair_iterable d types async
  | field name type required => exact blockPair_property d _ name type _ _ (by simp)
  | constant name type => exact blockPair_property d _ name type _ _ (by simp)
  | setlike element readonly =>
      exact .same _ _ (by simp) (by simp [contribution, memberBlock, setBlock, Block.ofBase])
  | maplike key value readonly =>
      exact .same _ _ (by simp) (by simp [contribution, memberBlock, mapBlock, Block.ofBase])
  | unsupported kind raw =>
      exact .same _ _ (by simp) (by simp [contribution, memberBlock, Noted.skip, Block.ofMembers])

end Blocks

theorem BlockPair.eq_nil_iff {owner : String} {m : Idl.Member} {ambient runtime : List Ts.Member}
    (h : BlockPair owner m ambient runtime) : runtime = [] ↔ ambient = [] := by
  cases h with
  | attr => simp
  | construct => simp
  | same => rfl

/-- A definition has members of its own in both modes or in neither. -/
theorem flatMap_contribution_eq_nil_iff (d : Idl.Definition) :
    d.members.flatMap (contribution .runtime d) = [] ↔
      d.members.flatMap (contribution .ambient d) = [] := by
  simp only [List.flatMap_eq_nil_iff]
  exact forall₂_congr fun m _ => (blockPair_contribution d m).eq_nil_iff

/-- The modes choose different words for a declaration only where it is no alias. -/
theorem shape_in_both_modes (name : String) (bases : List Ts.TypeExpr) {ambient runtime : List Ts.Member}
    (h : runtime = [] ↔ ambient = []) :
    (∃ base, shape .ambient name bases ambient = .aliasDecl name base ∧
        shape .runtime name bases runtime = .aliasDecl name base) ∨
      shape .ambient name bases ambient = .interfaceDecl name bases ambient ∧
        shape .runtime name bases runtime = .classDecl name bases runtime := by
  obtain ⟨base, rfl, hambient, halias⟩ | ⟨hbody, hambient⟩ :=
    shape_cases .ambient name bases ambient
  · obtain rfl : runtime = [] := h.mpr hambient
    exact .inl ⟨base, halias, rfl⟩
  · rw [← h] at hbody
    exact .inr ⟨hambient, shape_of_body hbody⟩

theorem declarationPair_definition (kind : Idl.DefinitionKind) (d : Idl.Definition) :
    List.Forall₂ (DeclarationPair (.definition kind d)) (definitionDeclarations .ambient d).result
      (definitionDeclarations .runtime d).result := by
  have hglobals : List.Forall₂ (DeclarationPair (.definition kind d)) (windowGlobals d)
      (windowGlobals d) := by
    unfold windowGlobals
    split
    · exact .cons (.windowGlobal kind d) .nil
    · exact .nil
  rw [result_definitionDeclarations, result_definitionDeclarations, allBases_runtime]
  refine .cons ?_ hglobals
  obtain ⟨base, hambient, hruntime⟩ | ⟨hambient, hruntime⟩ :=
    shape_in_both_modes d.name (allBases .ambient d) (flatMap_contribution_eq_nil_iff d)
  · rw [hambient, hruntime]
    exact .typeAlias _ _ _
  · rw [hambient, hruntime]
    exact .body kind d _ fun m _ => blockPair_contribution d m

theorem lockStep_cons {root : Idl.Root} {roots : List Idl.Root}
    (ih : LockStep roots (convert .ambient roots).items (convert .runtime roots).items) :
    LockStep (root :: roots) (convert .ambient (root :: roots)).items
      (convert .runtime (root :: roots)).items := by
  simp only [items_convert] at ih ⊢
  cases root with
  | definition kind d => exact .item rfl (declarationPair_definition kind d) ih
  | includes target mixin => exact .item rfl (.cons (.mixin target mixin) .nil) ih
  | enumeration name values => exact .item rfl (.cons (.typeAlias _ _ _) .nil) ih
  | callback name returns arguments => exact .item rfl (.cons (.typeAlias _ _ _) .nil) ih
  | typedef name type => exact .item rfl (.cons (.typeAlias _ _ _) .nil) ih
  | unsupported kind raw => exact .skipped kind raw ih

theorem lockStep_items (roots : List Idl.Root) :
    LockStep roots (convert .ambient roots).items (convert .runtime roots).items := by
  induction roots with
  | nil => exact .nil
  | cons root roots ih => exact lockStep_cons ih

theorem LockStep.sources_eq {roots : List Idl.Root} {as rs : List Item} (h : LockStep roots as rs) :
    rs.map Item.source = as.map Item.source := by
  induction h with
  | nil => rfl
  | skipped kind raw _ ih => exact ih
  | item _ _ _ ih => simp only [List.map_cons, ih]

theorem notes_item_runtime (root : Idl.Root) :
    (item? .runtime root).notes = (item? .ambient root).notes := by
  cases root with
  | definition kind d =>
      simp [item?, notes_definitionDeclarations, notes_memberBlock_runtime]
  | _ => rfl

/-- **Lock step.** On every program the two modes note the same constructs, convert the same
definitions under the same names, and their declarations correspond one by one. -/
theorem convert_lockStep (roots : List Idl.Root) :
    (convert .runtime roots).diagnostics = (convert .ambient roots).diagnostics ∧
      (convert .runtime roots).items.map Item.source =
        (convert .ambient roots).items.map Item.source ∧
      LockStep roots (convert .ambient roots).items (convert .runtime roots).items := by
  refine ⟨?_, (lockStep_items roots).sources_eq, lockStep_items roots⟩
  simp only [diagnostics_convert, notes_item_runtime]

end IdlTypings.Conversion
