import IdlTypings.Proofs.Conversion.Independence
import IdlTypings.Proofs.Conversion.Siblings

/-!
# Constructors in two spellings

An operation that goes by the name of its definition is an older spelling of a constructor. Writing
it as a constructor changes nothing in the result of a conversion, although the other members may
look through the list that it stands in. They look for setters without a name and for indexed
getters. An indexed getter keeps its spelling here, and a setter without a name is a constructor
only where the definition has no name either, so that no member of it asks for a setter.
-/

namespace IdlTypings.Idl

def Member.isConstruct : Member → Bool
  | .construct _ => true
  | _ => false

def Member.isOperationNamed (name : String) : Member → Bool
  | .operation op => op.name = name
  | _ => false

def Operation.explicit (owner : String) (op : Operation) : Member :=
  if op.name = owner ∧ op.isIndexedGetter = false then .construct op.arguments else .operation op

/-- The member with an operation named like its owner written as a constructor. -/
def Member.explicit (owner : String) : Member → Member
  | .operation op => op.explicit owner
  | m => m

def Definition.explicit (d : Definition) : Definition :=
  d.withMembers (d.members.map (Member.explicit d.name))

theorem Operation.explicit_cases (owner : String) (op : Operation) :
    op.name = owner ∧ op.isIndexedGetter = false ∧ op.explicit owner = .construct op.arguments ∨
      op.explicit owner = .operation op := by
  unfold Operation.explicit
  split
  · rename_i h
    exact .inl ⟨h.1, h.2, rfl⟩
  · exact .inr rfl

theorem memberIndexType_explicit (owner : String) (m : Member) :
    Conversion.memberIndexType? (m.explicit owner) = Conversion.memberIndexType? m := by
  cases m with
  | operation op =>
      rw [Member.explicit]
      obtain ⟨-, hgetter, hexplicit⟩ | hkept := op.explicit_cases owner
      · rw [hexplicit]
        exact (Option.not_isSome_iff_eq_none.mp (Bool.eq_false_iff.mp hgetter)).symm
      · rw [hkept]
  | _ => rfl

theorem isIndexSetter_explicit {owner : String} (h : owner ≠ "") (m : Member) :
    Conversion.isIndexSetter (m.explicit owner) = Conversion.isIndexSetter m := by
  cases m with
  | operation op =>
      rw [Member.explicit]
      obtain ⟨rfl, -, hexplicit⟩ | hkept := op.explicit_cases owner
      · rw [hexplicit]
        simp [Conversion.isIndexSetter, h]
      · rw [hkept]
  | _ => rfl

end IdlTypings.Idl

namespace IdlTypings.Ts

/-- The body of an interface or a class. -/
def Declaration.members : Declaration → List Member
  | .interfaceDecl _ _ members => members
  | .classDecl _ _ members => members
  | _ => []

end IdlTypings.Ts

namespace IdlTypings.Conversion

/-! ### The context -/

theorem indexType_explicit (d : Idl.Definition) :
    (Context.of d.explicit).indexType? = (Context.of d).indexType? := by
  change (d.members.map _).findSome? memberIndexType? = d.members.findSome? memberIndexType?
  rw [List.findSome?_map]
  congr 1
  funext m
  exact Idl.memberIndexType_explicit d.name m

theorem writable_explicit {d : Idl.Definition} (h : d.name ≠ "") :
    (Context.of d.explicit).writable = (Context.of d).writable := by
  change (d.members.map _).any isIndexSetter = d.members.any isIndexSetter
  rw [List.any_map]
  congr 1
  funext m
  exact Idl.isIndexSetter_explicit h m

/-! ### One member -/

section Members

variable {mode : Mode} {ctx other : Context}

theorem operationBlock_of_owner {op : Idl.Operation} (h : op.name = ctx.owner) :
    operationBlock mode ctx op = constructBlock mode ctx op.arguments :=
  if_pos h

theorem memberBlock_explicit_operation {op : Idl.Operation} (h : op.name = ctx.owner) :
    memberBlock mode ctx (op.explicit ctx.owner) = constructBlock mode ctx op.arguments := by
  obtain ⟨-, -, hexplicit⟩ | hkept := op.explicit_cases ctx.owner
  · rw [hexplicit]
    rfl
  · rw [hkept]
    exact operationBlock_of_owner h

/-- In either spelling a member gives the same block, and a definition without a name does not ask
for setters. -/
theorem memberBlock_explicit (howner : ctx.owner = other.owner)
    (hwritable : ctx.owner ≠ "" → ctx.writable = other.writable)
    (hindex : ctx.indexType? = other.indexType?) (m : Idl.Member) :
    memberBlock mode ctx (m.explicit ctx.owner) = memberBlock mode other m := by
  cases m with
  | operation op =>
      by_cases hname : op.name = ctx.owner
      · have hother : op.name = other.owner := hname.trans howner
        calc memberBlock mode ctx (op.explicit ctx.owner)
            = constructBlock mode ctx op.arguments := memberBlock_explicit_operation hname
          _ = constructBlock mode other op.arguments := by simp only [constructBlock, howner]
          _ = memberBlock mode other (.operation op) := (operationBlock_of_owner hother).symm
      · have hkept : op.explicit ctx.owner = .operation op := if_neg fun h => hname h.1
        rw [Idl.Member.explicit, hkept]
        apply memberBlock_congr howner
        · intro hlooks
          have hanonymous : op.name = "" := (of_decide_eq_true hlooks).1
          exact hwritable (hanonymous ▸ Ne.symm hname)
        · intro _
          exact hindex
  | _ =>
      apply memberBlock_congr howner
      · intro hlooks
        cases hlooks
      · intro _
        exact hindex

end Members

/-! ### One definition -/

theorem each_map {α β γ : Type} (f : β → Noted γ) (g : α → β) (items : List α) :
    Noted.each f (items.map g) = Noted.each (fun a => f (g a)) items := by
  induction items with
  | nil => rfl
  | cons a rest ih =>
      rw [List.map_cons, Noted.each, ih]
      rfl

theorem definitionDeclarations_explicit (mode : Mode) (d : Idl.Definition) :
    definitionDeclarations mode d.explicit = definitionDeclarations mode d := by
  have hblocks : ∀ m : Idl.Member,
      memberBlock mode (.of d.explicit) (m.explicit d.name) = memberBlock mode (.of d) m :=
    memberBlock_explicit rfl (fun h => writable_explicit h) (indexType_explicit d)
  have hblock : definitionBlock mode d.explicit = definitionBlock mode d := by
    change Block.concat <$> Noted.each _ (d.members.map _) = _
    rw [each_map, funext hblocks]
    rfl
  simp only [definitionDeclarations, hblock]
  rfl

theorem convert_explicit_singleton (mode : Mode) (kind : Idl.DefinitionKind)
    (d : Idl.Definition) :
    convert mode [.definition kind d.explicit] = convert mode [.definition kind d] := by
  simp only [convert, Noted.each, item?, definitionDeclarations_explicit]
  rfl

/-! ### How many there are -/

/-- Whether a member is what a constructor becomes. -/
def isConstructorOf (mode : Mode) : Ts.Member → Bool
  | .constructSignature _ _ => mode = .ambient
  | .classConstructor _ => mode = .runtime
  | .property _ | .method _ | .index _ => false

def constructorCount (mode : Mode) (c : Converted) : Nat :=
  (c.declarations.flatMap Ts.Declaration.members).countP (isConstructorOf mode)

section Counting

variable (mode : Mode) (d : Idl.Definition)

theorem countP_constructBlock (ctx : Context) (arguments : List Idl.Argument) :
    (constructBlock mode ctx arguments).result.members.countP (isConstructorOf mode) = 1 := by
  cases mode <;> rfl

theorem countP_anonymousBlock (ctx : Context) (op : Idl.Operation) :
    (anonymousBlock ctx op).result.members.countP (isConstructorOf mode) = 0 := by
  unfold anonymousBlock
  split <;> rfl

theorem countP_iterableBlock (ctx : Context) (types : List Idl.TypeExpr) (async : Bool) :
    (iterableBlock ctx types async).result.members.countP (isConstructorOf mode) = 0 := by
  unfold iterableBlock
  split <;> rfl

theorem countP_operationBlock (ctx : Context) (op : Idl.Operation) :
    (operationBlock mode ctx op).result.members.countP (isConstructorOf mode) =
      if op.name = ctx.owner then 1 else 0 := by
  unfold operationBlock
  split
  · exact countP_constructBlock mode ctx op.arguments
  · split
    · exact countP_anonymousBlock mode ctx op
    · rfl

theorem countP_contribution (m : Idl.Member) :
    (contribution mode d m).countP (isConstructorOf mode) =
      (if m.isConstruct then 1 else 0) + if m.isOperationNamed d.name then 1 else 0 := by
  cases m with
  | operation op =>
      have hcount : (contribution mode d (.operation op)).countP (isConstructorOf mode) =
          if op.name = d.name then 1 else 0 := countP_operationBlock mode (.of d) op
      simp [hcount, Idl.Member.isConstruct, Idl.Member.isOperationNamed]
  | construct arguments => exact countP_constructBlock mode (.of d) arguments
  | iterable types async => exact countP_iterableBlock mode (.of d) types async
  | attr a => cases mode <;> rfl
  | _ => rfl

theorem countP_flatMap_contribution (members : List Idl.Member) :
    (members.flatMap (contribution mode d)).countP (isConstructorOf mode) =
      members.countP Idl.Member.isConstruct +
        members.countP (Idl.Member.isOperationNamed d.name) := by
  induction members with
  | nil => rfl
  | cons m rest ih =>
      rw [List.flatMap_cons, List.countP_append, ih, countP_contribution, List.countP_cons,
        List.countP_cons]
      omega

theorem members_shape (name : String) (bases : List Ts.TypeExpr) (members : List Ts.Member) :
    (shape mode name bases members).members = members := by
  obtain ⟨base, -, rfl, halias⟩ | ⟨-, hbody⟩ := shape_cases mode name bases members
  · rw [halias]
    rfl
  · rw [hbody]
    cases mode <;> rfl

theorem members_convert_definition (kind : Idl.DefinitionKind) :
    (convert mode [.definition kind d]).declarations.flatMap Ts.Declaration.members =
      d.members.flatMap (contribution mode d) := by
  have hglobals : (windowGlobals d).flatMap Ts.Declaration.members = [] := by
    unfold windowGlobals
    split <;> rfl
  have hdeclarations : (convert mode [.definition kind d]).declarations =
      (definitionDeclarations mode d).result := List.append_nil _
  rw [hdeclarations, result_definitionDeclarations, List.flatMap_cons, hglobals, members_shape,
    List.append_nil]

end Counting

/-- **Constructors.** A definition gives the same items and the same diagnostics whether operations
of its name are written as such or as constructors, whatever they are marked with and whatever they
return, and wherever it stands in a program. It has one constructor for each of its constructor
members and one for each operation of its name. -/
theorem convert_explicit (mode : Mode) (kind : Idl.DefinitionKind) (d : Idl.Definition) :
    (∀ before after : List Idl.Root,
      convert mode (before ++ .definition kind d.explicit :: after) =
        convert mode (before ++ .definition kind d :: after)) ∧
    constructorCount mode (convert mode [.definition kind d]) =
      d.members.countP Idl.Member.isConstruct +
        d.members.countP (Idl.Member.isOperationNamed d.name) := by
  constructor
  · intro before after
    rw [← List.singleton_append, convert_append, convert_append, convert_explicit_singleton,
      ← convert_append, ← convert_append, List.singleton_append]
  · rw [constructorCount, members_convert_definition]
    exact countP_flatMap_contribution mode d d.members

end IdlTypings.Conversion
