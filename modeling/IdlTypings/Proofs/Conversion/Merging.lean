import IdlTypings.Proofs.Conversion.Contribution
import IdlTypings.Proofs.Conversion.Skipped

/-!
# Declarations of one name

Interfaces of one name are merged, an alias cannot be merged with anything. Whether a definition
becomes an alias is decided by looking at it alone: it does so if it has a single base and its
members leave nothing in its body. So a definition that collapses gets in the way of every other
definition of its name, a partial one or an includes statement.
-/

namespace IdlTypings.Idl

/-- Nothing comes of an operation without a name, unless it is a getter or a stringifier. -/
def Operation.isSilent (owner : String) (op : Operation) : Bool :=
  op.name ≠ owner && op.name = "" &&
    match op.special, op.arguments with
    | some .getter, [_] => false
    | some .stringifier, [] => false
    | _, _ => true

/-- Whether a member of `d` leaves nothing in its body. -/
def Member.isSilent (d : Definition) : Member → Bool
  | .operation op => op.isSilent d.name
  | .iterable [_, _] _ => false
  | .iterable [_] _ => !d.members.any Member.isIndexedGetter
  | .iterable _ _ => true
  | .setlike _ _ | .maplike _ _ _ | .unsupported _ _ => true
  | _ => false

def Member.addsBase : Member → Bool
  | .setlike _ _ | .maplike _ _ _ => true
  | _ => false

def Definition.baseCount (d : Definition) : Nat :=
  d.inheritance.toList.length + d.members.countP Member.addsBase

def Definition.collapses (d : Definition) : Bool :=
  d.baseCount = 1 && d.members.all (Member.isSilent d)

/-- Whether a root is one of those whose declarations are merged. -/
def Root.isMergeable : Root → Bool
  | .definition _ _ | .includes _ _ => true
  | _ => false

end IdlTypings.Idl

namespace IdlTypings.Conversion

section Members

variable (mode : Mode) (d : Idl.Definition)

theorem anonymousBlock_members_eq_nil_iff {op : Idl.Operation} (howner : op.name ≠ d.name)
    (hname : op.name = "") :
    (anonymousBlock (.of d) op).result.members = [] ↔ op.isSilent d.name = true := by
  have hsilent : op.isSilent d.name =
      match op.special, op.arguments with
      | some .getter, [_] => false
      | some .stringifier, [] => false
      | _, _ => true := by
    rw [Idl.Operation.isSilent, decide_eq_true howner, decide_eq_true hname]
    rfl
  unfold anonymousBlock
  split
  · rename_i key hspecial harguments
    refine iff_of_false (List.cons_ne_nil _ _) ?_
    rw [hsilent, hspecial, harguments]
    exact Bool.false_ne_true
  · rename_i hspecial harguments
    refine iff_of_false (List.cons_ne_nil _ _) ?_
    rw [hsilent, hspecial, harguments]
    exact Bool.false_ne_true
  · rename_i hgetter hstringifier
    refine iff_of_true rfl ?_
    rw [hsilent]
    split
    · rename_i key hspecial harguments
      exact absurd harguments (hgetter key hspecial)
    · rename_i hspecial harguments
      exact absurd harguments (hstringifier hspecial)
    · rfl

theorem contribution_operation_eq_nil_iff (op : Idl.Operation) :
    contribution mode d (.operation op) = [] ↔ op.isSilent d.name = true := by
  simp only [contribution, memberBlock, operationBlock]
  by_cases howner : op.name = d.name
  · have hctx : op.name = (Context.of d).owner := howner
    rw [if_pos hctx]
    cases mode <;>
      exact iff_of_false (List.cons_ne_nil _ _) (by simp [Idl.Operation.isSilent, howner])
  · have hctx : ¬op.name = (Context.of d).owner := howner
    rw [if_neg hctx]
    by_cases hname : op.name = ""
    · rw [if_pos hname]
      exact anonymousBlock_members_eq_nil_iff d howner hname
    · rw [if_neg hname]
      exact iff_of_false (List.cons_ne_nil _ _) (by simp [Idl.Operation.isSilent, hname])

theorem contribution_iterable_eq_nil_iff (types : List Idl.TypeExpr) (async : Bool) :
    contribution mode d (.iterable types async) = [] ↔
      Idl.Member.isSilent d (.iterable types async) = true := by
  match types with
  | [] | _ :: _ :: _ :: _ => exact iff_of_true rfl rfl
  | [key, value] => exact iff_of_false (List.cons_ne_nil _ _) Bool.false_ne_true
  | [value] =>
      rw [Idl.Member.isSilent, ← isSome_indexType]
      simp only [contribution, memberBlock, iterableBlock]
      cases (Context.of d).indexType? with
      | none => exact iff_of_true rfl rfl
      | some key => exact iff_of_false (List.cons_ne_nil _ _) Bool.false_ne_true

/-- Both modes agree on which members leave nothing in the body. -/
theorem contribution_eq_nil_iff (m : Idl.Member) :
    contribution mode d m = [] ↔ m.isSilent d = true := by
  cases m with
  | attr a => cases mode <;> exact iff_of_false (List.cons_ne_nil _ _) Bool.false_ne_true
  | operation op => exact contribution_operation_eq_nil_iff mode d op
  | construct arguments =>
      cases mode <;> exact iff_of_false (List.cons_ne_nil _ _) Bool.false_ne_true
  | field name type required => exact iff_of_false (List.cons_ne_nil _ _) Bool.false_ne_true
  | constant name type => exact iff_of_false (List.cons_ne_nil _ _) Bool.false_ne_true
  | iterable types async => exact contribution_iterable_eq_nil_iff mode d types async
  | setlike element readonly => exact iff_of_true rfl rfl
  | maplike key value readonly => exact iff_of_true rfl rfl
  | unsupported kind raw => exact iff_of_true rfl rfl

theorem length_inheritedBases (m : Idl.Member) :
    (inheritedBases mode d m).length = if m.addsBase then 1 else 0 := by
  cases m with
  | operation op =>
      simp only [inheritedBases, memberBlock, operationBlock, anonymousBlock]
      split
      · rfl
      · split
        · split <;> rfl
        · rfl
  | iterable types async =>
      simp only [inheritedBases, memberBlock, iterableBlock]
      split <;> rfl
  | _ => rfl

theorem length_allBases : (allBases mode d).length = d.baseCount := by
  have hmembers : (d.members.flatMap (inheritedBases mode d)).length =
      d.members.countP Idl.Member.addsBase := by
    induction d.members with
    | nil => rfl
    | cons m rest ih =>
        rw [List.flatMap_cons, List.length_append, ih, length_inheritedBases, List.countP_cons,
          Nat.add_comm]
  rw [allBases, List.length_append, List.length_map, hmembers, Idl.Definition.baseCount]

theorem collapses_iff :
    d.collapses = true ↔
      (allBases mode d).length = 1 ∧ d.members.flatMap (contribution mode d) = [] := by
  simp [Idl.Definition.collapses, length_allBases, List.flatMap_eq_nil_iff,
    contribution_eq_nil_iff]

end Members

/-! ### Kinds of declarations -/

/-- The kind of the main declaration of a definition. -/
def bodyKind (mode : Mode) (d : Idl.Definition) : Ts.DeclarationKind :=
  if d.collapses then .aliasKind
  else
    match mode with
    | .ambient => .interfaceKind
    | .runtime => .classKind

theorem bodyKind_ne_variableKind (mode : Mode) (d : Idl.Definition) :
    bodyKind mode d ≠ .variableKind := by
  unfold bodyKind
  cases d.collapses <;> cases mode <;> decide

/-- The kinds of the declarations of a root, by looking at the root alone. -/
def declaredKinds (mode : Mode) : Idl.Root → List Ts.DeclarationKind
  | .definition _ d =>
      bodyKind mode d :: if d.extAttrs.isExposedOn "Window" then [.variableKind] else []
  | .includes _ _ => [.interfaceKind]
  | .enumeration _ _ | .callback _ _ _ | .typedef _ _ => [.aliasKind]
  | .unsupported _ _ => []

theorem kind_shape (mode : Mode) (name : String) (bases : List Ts.TypeExpr)
    (members : List Ts.Member) :
    (shape mode name bases members).kind =
      if bases.length = 1 ∧ members = [] then .aliasKind
      else
        match mode with
        | .ambient => .interfaceKind
        | .runtime => .classKind := by
  obtain ⟨base, rfl, rfl, halias⟩ | ⟨hbody, hshape⟩ := shape_cases mode name bases members
  · rw [halias]
    rfl
  · rw [if_neg hbody, hshape]
    cases mode <;> rfl

theorem name_shape (mode : Mode) (name : String) (bases : List Ts.TypeExpr)
    (members : List Ts.Member) : (shape mode name bases members).name = name := by
  unfold shape
  split <;> rfl

theorem kind_definition (mode : Mode) (d : Idl.Definition) :
    (shape mode d.name (allBases mode d) (d.members.flatMap (contribution mode d))).kind =
      bodyKind mode d := by
  simp only [kind_shape, bodyKind, collapses_iff mode]

/-- A name together with the kind of what is declared under it. -/
abbrev Label : Type := String × Ts.DeclarationKind

def labelOf (declaration : Ts.Declaration) : Label := (declaration.name, declaration.kind)

def labelsOf (mode : Mode) (root : Idl.Root) : List Label :=
  root.name?.toList.flatMap fun name => (declaredKinds mode root).map fun kind => (name, kind)

theorem labels_definition (mode : Mode) (kind : Idl.DefinitionKind) (d : Idl.Definition) :
    (definitionDeclarations mode d).result.map labelOf = labelsOf mode (.definition kind d) := by
  have hbody : labelOf (shape mode d.name (allBases mode d)
      (d.members.flatMap (contribution mode d))) = (d.name, bodyKind mode d) :=
    Prod.ext (name_shape _ _ _ _) (kind_definition mode d)
  have hglobals : (windowGlobals d).map labelOf =
      (if d.extAttrs.isExposedOn "Window" then [.variableKind] else []).map fun kind =>
        (d.name, kind) := by
    unfold windowGlobals
    split <;> rfl
  rw [result_definitionDeclarations, List.map_cons, hbody, hglobals]
  exact (List.append_nil _).symm

theorem labels_item (mode : Mode) (root : Idl.Root) :
    ((item? mode root).result.toList.flatMap Item.declarations).map labelOf =
      labelsOf mode root := by
  cases root with
  | definition kind d =>
      rw [← labels_definition]
      exact congrArg _ (List.append_nil _)
  | _ => rfl

/-- The names and kinds of all declarations, by looking at each root alone. -/
theorem labels_convert (mode : Mode) (roots : List Idl.Root) :
    (convert mode roots).declarations.map labelOf = roots.flatMap (labelsOf mode) := by
  rw [Converted.declarations, items_convert]
  induction roots with
  | nil => rfl
  | cons root rest ih =>
      rw [List.flatMap_cons, ← ih, ← labels_item]
      cases h : (item? mode root).result <;> simp [h]

/-- Whatever type is declared under the name is an interface. -/
def Merges (name : String) (c : Converted) : Prop :=
  ∀ declaration ∈ c.declarations, declaration.name = name →
    declaration.kind = .interfaceKind ∨ declaration.kind = .variableKind

theorem merges_iff_labels {name : String} {c : Converted} :
    Merges name c ↔ ∀ kind : Ts.DeclarationKind, (name, kind) ∈ c.declarations.map labelOf →
      kind = .interfaceKind ∨ kind = .variableKind := by
  constructor
  · intro h kind hmem
    obtain ⟨declaration, hdeclaration, hlabel⟩ := List.mem_map.mp hmem
    obtain ⟨hname, rfl⟩ := Prod.ext_iff.mp hlabel
    exact h declaration hdeclaration hname
  · rintro h declaration hdeclaration rfl
    exact h declaration.kind (List.mem_map_of_mem hdeclaration)

theorem mem_labelsOf_iff {mode : Mode} {root : Idl.Root} {name : String}
    {kind : Ts.DeclarationKind} :
    (name, kind) ∈ labelsOf mode root ↔
      root.name? = some name ∧ kind ∈ declaredKinds mode root := by
  rw [labelsOf, List.mem_flatMap]
  constructor
  · rintro ⟨source, hsource, hmem⟩
    obtain ⟨declared, hdeclared, hlabel⟩ := List.mem_map.mp hmem
    cases hlabel
    exact ⟨Option.mem_toList.mp hsource, hdeclared⟩
  · rintro ⟨hname, hkind⟩
    exact ⟨name, Option.mem_toList.mpr hname, List.mem_map_of_mem hkind⟩

theorem declaredKinds_definition (kind : Idl.DefinitionKind) (d : Idl.Definition) :
    (∀ declared ∈ declaredKinds .ambient (.definition kind d),
        declared = .interfaceKind ∨ declared = .variableKind) ↔ d.collapses = false := by
  rw [declaredKinds, List.forall_mem_cons, bodyKind]
  cases d.collapses with
  | true => exact iff_of_false (fun h => by simp at h) nofun
  | false =>
      refine iff_of_true ⟨.inl rfl, fun declared hmem => ?_⟩ rfl
      split at hmem
      · exact .inr (List.mem_singleton.mp hmem)
      · cases hmem

/-- Among the roots whose declarations are merged only a definition that collapses declares an
alias. -/
theorem declaredKinds_ambient {root : Idl.Root} (h : root.isMergeable = true) :
    (∀ declared ∈ declaredKinds .ambient root,
        declared = .interfaceKind ∨ declared = .variableKind) ↔
      ∀ kind d, root = .definition kind d → d.collapses = false := by
  cases root with
  | definition kind d =>
      rw [declaredKinds_definition]
      refine ⟨?_, fun h => h kind d rfl⟩
      rintro h _ _ ⟨⟩
      exact h
  | includes target mixin =>
      exact iff_of_true (fun declared hmem => .inl (List.mem_singleton.mp hmem)) nofun
  | _ => cases h

/-- **Merging.** If only definitions and includes statements go by a name, their ambient
declarations can be merged exactly if none of these definitions collapses. -/
theorem merges_convert_ambient_iff {roots : List Idl.Root} {name : String}
    (hroots : ∀ root ∈ roots, root.name? = some name → root.isMergeable = true) :
    Merges name (convert .ambient roots) ↔
      ∀ kind d, .definition kind d ∈ roots → d.name = name → d.collapses = false := by
  rw [merges_iff_labels, labels_convert]
  constructor
  · rintro h kind d hmem rfl
    refine (declaredKinds_ambient (hroots _ hmem rfl)).mp (fun declared hdeclared => ?_) kind d rfl
    exact h declared (List.mem_flatMap.mpr ⟨_, hmem, mem_labelsOf_iff.mpr ⟨rfl, hdeclared⟩⟩)
  · intro h declared hdeclared
    obtain ⟨root, hroot, hlabel⟩ := List.mem_flatMap.mp hdeclared
    obtain ⟨hname, hkind⟩ := mem_labelsOf_iff.mp hlabel
    refine (declaredKinds_ambient (hroots root hroot hname)).mpr ?_ declared hkind
    rintro kind d rfl
    exact h kind d hroot (Option.some_inj.mp hname)

/-- An interface, a partial one, and a mixin for it. -/
def nodeRoots : List Idl.Root :=
  [.definition .interface
      { name := "Node"
        inheritance := some "EventTarget"
        members := [.attr ⟨"nodeType", .named "unsigned short" false, true, none⟩]
        extAttrs := .ofList [("Exposed", ["Window"])] },
    .definition .interface
      { name := "Node"
        inheritance := none
        members := [.constant "TEXT_NODE" (.named "unsigned short" false)]
        extAttrs := .ofList [] },
    .includes "Node" "Slottable"]

theorem merges_nodeRoots :
    (∀ root ∈ nodeRoots, root.name? = some "Node" → root.isMergeable = true) ∧
      Merges "Node" (convert .ambient nodeRoots) := by
  have hroots : ∀ root ∈ nodeRoots, root.name? = some "Node" → root.isMergeable = true := by
    simp [nodeRoots, Idl.Root.isMergeable]
  refine ⟨hroots, (merges_convert_ambient_iff hroots).mpr ?_⟩
  intro kind d hmem _
  simp only [nodeRoots, List.mem_cons, Idl.Root.definition.injEq, List.not_mem_nil, or_false,
    reduceCtorEq] at hmem
  obtain ⟨-, rfl⟩ | ⟨-, rfl⟩ := hmem <;> rfl

/-- An interface without members of its own, and a mixin for it. -/
def xmlDocumentRoots : List Idl.Root :=
  [.definition .interface
      { name := "XMLDocument"
        inheritance := some "Document"
        members := []
        extAttrs := .ofList [] },
    .includes "XMLDocument" "ParentNode"]

/-- That all definitions and includes statements of one name can be merged is too much to ask: an
interface that has a single base and no body becomes an alias. -/
theorem not_forall_merges :
    ¬∀ (roots : List Idl.Root) (name : String),
      2 ≤ (roots.filter fun root => root.name? = some name).length →
      (∀ root ∈ roots, root.name? = some name → root.isMergeable = true) →
      Merges name (convert .ambient roots) := by
  intro h
  have hmerges : Merges "XMLDocument" (convert .ambient xmlDocumentRoots) :=
    h xmlDocumentRoots "XMLDocument" (by decide) (by simp [xmlDocumentRoots, Idl.Root.isMergeable])
  have hkind := hmerges (.aliasDecl "XMLDocument" (.name "Document")) (.head _) rfl
  simp [Ts.Declaration.kind] at hkind

end IdlTypings.Conversion
