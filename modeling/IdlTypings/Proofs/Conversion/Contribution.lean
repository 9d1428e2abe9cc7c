import IdlTypings.Conversion.Item

/-!
# What each part contributes

A conversion goes through its roots, and a definition through its members, without carrying anything
from one to the next: what is converted and what is noted are the concatenations of what each root
and each member gives by itself.
-/

namespace IdlTypings.Conversion

/-- The TypeScript members that a member of `d` becomes. -/
def contribution (mode : Mode) (d : Idl.Definition) (m : Idl.Member) : List Ts.Member :=
  (memberBlock mode (.of d) m).result.members

/-- The base types that a member of `d` adds. -/
def inheritedBases (mode : Mode) (d : Idl.Definition) (m : Idl.Member) : List Ts.TypeExpr :=
  (memberBlock mode (.of d) m).result.bases

theorem items_convert (mode : Mode) (roots : List Idl.Root) :
    (convert mode roots).items = roots.filterMap fun root => (item? mode root).result := by
  simp [convert, List.filterMap_map]

theorem diagnostics_convert (mode : Mode) (roots : List Idl.Root) :
    (convert mode roots).diagnostics = roots.flatMap fun root => (item? mode root).notes := by
  simp [convert]

@[simp]
theorem members_definitionBlock (mode : Mode) (d : Idl.Definition) :
    (definitionBlock mode d).result.members = d.members.flatMap (contribution mode d) := by
  simp only [definitionBlock, Noted.result_map, Noted.result_each, Block.concat, List.flatMap_map]
  rfl

@[simp]
theorem bases_definitionBlock (mode : Mode) (d : Idl.Definition) :
    (definitionBlock mode d).result.bases = d.members.flatMap (inheritedBases mode d) := by
  simp only [definitionBlock, Noted.result_map, Noted.result_each, Block.concat, List.flatMap_map]
  rfl

@[simp]
theorem notes_definitionBlock (mode : Mode) (d : Idl.Definition) :
    (definitionBlock mode d).notes =
      d.members.flatMap fun m => (memberBlock mode (.of d) m).notes := by
  simp [definitionBlock]

/-- Every base type of a definition, the inherited one first. -/
def allBases (mode : Mode) (d : Idl.Definition) : List Ts.TypeExpr :=
  d.inheritance.toList.map Ts.TypeExpr.name ++ d.members.flatMap (inheritedBases mode d)

theorem result_definitionDeclarations (mode : Mode) (d : Idl.Definition) :
    (definitionDeclarations mode d).result =
      shape mode d.name (allBases mode d) (d.members.flatMap (contribution mode d)) ::
        windowGlobals d := by
  simp [definitionDeclarations, allBases]

theorem notes_definitionDeclarations (mode : Mode) (d : Idl.Definition) :
    (definitionDeclarations mode d).notes =
      d.members.flatMap fun m => (memberBlock mode (.of d) m).notes := by
  simp [definitionDeclarations]

/-! ### The main declaration -/

/-- The main declaration of a definition that is no alias. -/
def bodyDeclaration (mode : Mode) (name : String) (bases : List Ts.TypeExpr)
    (members : List Ts.Member) : Ts.Declaration :=
  match mode with
  | .ambient => .interfaceDecl name bases members
  | .runtime => .classDecl name bases members

/-- The only place that goes through the cases of `shape`. -/
theorem shape_cases (mode : Mode) (name : String) (bases : List Ts.TypeExpr)
    (members : List Ts.Member) :
    (∃ base, bases = [base] ∧ members = [] ∧
        shape mode name bases members = .aliasDecl name base) ∨
      ¬(bases.length = 1 ∧ members = []) ∧
        shape mode name bases members = bodyDeclaration mode name bases members := by
  match bases, members, mode with
  | [base], [], _ => exact .inl ⟨base, rfl, rfl, rfl⟩
  | [_], _ :: _, .ambient | [_], _ :: _, .runtime => exact .inr ⟨nofun, rfl⟩
  | [], _, .ambient | [], _, .runtime => exact .inr ⟨nofun, rfl⟩
  | _ :: _ :: _, _, .ambient | _ :: _ :: _, _, .runtime => exact .inr ⟨nofun, rfl⟩

theorem shape_of_body {mode : Mode} {name : String} {bases : List Ts.TypeExpr}
    {members : List Ts.Member} (h : ¬(bases.length = 1 ∧ members = [])) :
    shape mode name bases members = bodyDeclaration mode name bases members := by
  obtain ⟨base, rfl, rfl, -⟩ | ⟨-, hbody⟩ := shape_cases mode name bases members
  · exact absurd ⟨rfl, rfl⟩ h
  · exact hbody

end IdlTypings.Conversion
