import IdlTypings.Proofs.Conversion.Skipped
import Mathlib.Data.List.Basic

/-!
# What a member sees of the others

Two kinds of members look at their siblings. A getter without a name asks whether there is a setter,
and an iterable over values asks for the key of the first indexed getter. Such a key is an
`unsigned long`, so that all there is to learn of it is whether it may be null. Two facts about the
list of members are therefore enough to convert any of them, and an edit of the list that keeps both
facts leaves the blocks of the other members as they were.
-/

namespace IdlTypings.Idl

def TypeExpr.isNullable : TypeExpr → Bool
  | .named _ nullable => nullable
  | .generic _ _ nullable => nullable
  | .union _ nullable => nullable
  | .unsupported _ => false

/-- Whether an operation takes an argument that may be null. -/
def Member.takesNullable : Member → Bool
  | .operation op => op.arguments.any fun a => a.type.isNullable
  | _ => false

def Definition.withMembers (d : Definition) (members : List Member) : Definition :=
  { d with members }

end IdlTypings.Idl

namespace IdlTypings.Conversion

/-- What the members of a list can learn of each other: whether some operation without a name is a
setter, and whether the first indexed getter, if there is one, takes an index that may be null. -/
structure SiblingFacts where
  hasSetter : Bool
  indexNullable? : Option Bool
  deriving DecidableEq

def SiblingFacts.of (members : List Idl.Member) : SiblingFacts where
  hasSetter := members.any isIndexSetter
  indexNullable? := (members.find? Idl.Member.isIndexedGetter).map Idl.Member.takesNullable

def SiblingFacts.context (facts : SiblingFacts) (owner : String) : Context where
  owner := owner
  writable := facts.hasSetter
  indexType? := facts.indexNullable?.map (Idl.TypeExpr.named "unsigned long")

/-- What each member of a definition gives. -/
def blocks (mode : Mode) (d : Idl.Definition) : List (Noted Block) :=
  d.members.map (memberBlock mode (.of d))

/-! ### The context is made of the facts -/

theorem eq_named_of_isNamed {name : String} {type : Idl.TypeExpr}
    (h : type.isNamed name = true) : type = .named name type.isNullable := by
  cases type with
  | named n nullable => rw [eq_of_beq h, Idl.TypeExpr.isNullable]
  | _ => cases h

theorem eq_named_of_indexType {op : Idl.Operation} {key : Idl.TypeExpr}
    (h : op.indexType? = some key) :
    key = .named "unsigned long" (Idl.Member.operation op).takesNullable := by
  obtain ⟨htypes, hnamed⟩ := argumentTypes_of_indexType h
  have hnullable : (Idl.Member.operation op).takesNullable = key.isNullable := by
    calc (Idl.Member.operation op).takesNullable
        = (op.arguments.map Idl.Argument.type).any Idl.TypeExpr.isNullable := by
          rw [List.any_map]
          rfl
      _ = [key].any Idl.TypeExpr.isNullable := by rw [htypes]
      _ = key.isNullable := Bool.or_false _
  rw [hnullable]
  exact eq_named_of_isNamed hnamed

theorem memberIndexType_eq (m : Idl.Member) :
    memberIndexType? m =
      if m.isIndexedGetter then some (.named "unsigned long" m.takesNullable) else none := by
  cases m with
  | operation op =>
      by_cases hgetter : (Idl.Member.operation op).isIndexedGetter = true
      · obtain ⟨key, hkey⟩ := Option.isSome_iff_exists.mp hgetter
        rw [if_pos hgetter, ← eq_named_of_indexType hkey]
        exact hkey
      · rw [if_neg hgetter]
        exact Option.not_isSome_iff_eq_none.mp hgetter
  | _ => rfl

theorem findSome_memberIndexType (members : List Idl.Member) :
    members.findSome? memberIndexType? =
      (SiblingFacts.of members).indexNullable?.map (Idl.TypeExpr.named "unsigned long") := by
  induction members with
  | nil => rfl
  | cons m rest ih =>
      rw [List.findSome?_cons, memberIndexType_eq, ih]
      simp only [SiblingFacts.of, List.find?_cons]
      cases m.isIndexedGetter <;> rfl

theorem context_of_eq (d : Idl.Definition) :
    Context.of d = (SiblingFacts.of d.members).context d.name := by
  rw [Context.of, findSome_memberIndexType]
  rfl

/-! ### Who looks at which fact -/

/-- Whether a member becomes an index signature. -/
def looksForSetter : Idl.Member → Bool
  | .operation op => op.name = "" ∧ op.special = some .getter ∧ op.arguments.length = 1
  | _ => false

/-- Whether a member is an iterable over values. -/
def looksForGetter : Idl.Member → Bool
  | .iterable types _ => types.length = 1
  | _ => false

section Congruence

variable {mode : Mode} {ctx other : Context}

theorem anonymousBlock_congr (howner : ctx.owner = other.owner) {op : Idl.Operation}
    (hname : op.name = "")
    (hsetter : looksForSetter (.operation op) = true → ctx.writable = other.writable) :
    anonymousBlock ctx op = anonymousBlock other op := by
  unfold anonymousBlock
  split
  · rename_i key hspecial harguments
    have hlooks : looksForSetter (.operation op) = true := by
      simp [looksForSetter, hname, hspecial, harguments]
    rw [howner, hsetter hlooks]
  · rfl
  · rfl

theorem operationBlock_congr (howner : ctx.owner = other.owner) {op : Idl.Operation}
    (hsetter : looksForSetter (.operation op) = true → ctx.writable = other.writable) :
    operationBlock mode ctx op = operationBlock mode other op := by
  have hconstruct : constructBlock mode ctx op.arguments = constructBlock mode other op.arguments :=
    by simp only [constructBlock, howner]
  have hmethod : methodBlock ctx op = methodBlock other op := by
    simp only [methodBlock, howner]
  simp only [operationBlock, howner, hconstruct, hmethod]
  by_cases hname : op.name = ""
  · rw [anonymousBlock_congr howner hname hsetter]
  · simp only [if_neg hname]

theorem iterableBlock_congr (howner : ctx.owner = other.owner) {types : List Idl.TypeExpr}
    {async : Bool}
    (hgetter : looksForGetter (.iterable types async) = true →
      ctx.indexType? = other.indexType?) :
    iterableBlock ctx types async = iterableBlock other types async := by
  match types with
  | [] => rfl
  | [value] => simp only [iterableBlock, howner, hgetter rfl]
  | [key, value] => simp only [iterableBlock, howner]
  | _ :: _ :: _ :: _ => rfl

/-- Beyond the name of the definition, no member looks at more than the one fact it needs. -/
theorem memberBlock_congr (howner : ctx.owner = other.owner) {m : Idl.Member}
    (hsetter : looksForSetter m = true → ctx.writable = other.writable)
    (hgetter : looksForGetter m = true → ctx.indexType? = other.indexType?) :
    memberBlock mode ctx m = memberBlock mode other m := by
  cases m with
  | attr a => simp only [memberBlock, attributeBlock, howner]
  | operation op => exact operationBlock_congr howner hsetter
  | construct arguments => simp only [memberBlock, constructBlock, howner]
  | field name type required => simp only [memberBlock, propertyBlock, howner]
  | constant name type => simp only [memberBlock, propertyBlock, howner]
  | iterable types async => exact iterableBlock_congr howner hgetter
  | setlike element readonly => simp only [memberBlock, setBlock, howner]
  | maplike key value readonly => simp only [memberBlock, mapBlock, howner]
  | unsupported kind raw => simp only [memberBlock, howner]

end Congruence

/-! ### Edits that keep the facts -/

/-- A member that is neither an anonymous setter nor an indexed getter. -/
def isUnnoticed (m : Idl.Member) : Bool := !isIndexSetter m && !m.isIndexedGetter

theorem siblingFacts_insert {extra : List Idl.Member} (h : ∀ m ∈ extra, isUnnoticed m = true)
    (xs ys : List Idl.Member) :
    SiblingFacts.of (xs ++ extra ++ ys) = SiblingFacts.of (xs ++ ys) := by
  have hunnoticed : ∀ m ∈ extra, isIndexSetter m = false ∧ m.isIndexedGetter = false := by
    intro m hm
    simpa [isUnnoticed] using h m hm
  have hsetter : extra.any isIndexSetter = false := by
    apply List.any_eq_false.mpr
    intro m hm
    exact Bool.eq_false_iff.mp (hunnoticed m hm).1
  have hgetter : extra.find? Idl.Member.isIndexedGetter = none := by
    apply List.find?_eq_none.mpr
    intro m hm
    exact Bool.eq_false_iff.mp (hunnoticed m hm).2
  simp only [SiblingFacts.of, List.any_append, List.find?_append, hsetter, hgetter, Bool.or_false,
    Option.or_none]

/-- The indexed getters of a list agree on whether the index may be null. -/
def GettersAgree (members : List Idl.Member) : Prop :=
  ∀ g ∈ members, ∀ h ∈ members, g.isIndexedGetter = true → h.isIndexedGetter = true →
    g.takesNullable = h.takesNullable

theorem siblingFacts_perm {xs ys : List Idl.Member} (hperm : xs.Perm ys)
    (hagree : GettersAgree xs) : SiblingFacts.of xs = SiblingFacts.of ys := by
  have hsetter : xs.any isIndexSetter = ys.any isIndexSetter := hperm.any_eq
  have hgetter : (xs.find? Idl.Member.isIndexedGetter).map Idl.Member.takesNullable =
      (ys.find? Idl.Member.isIndexedGetter).map Idl.Member.takesNullable := by
    -- The first getters of the two lists need not be the same one.
    cases hx : xs.find? Idl.Member.isIndexedGetter with
    | none =>
        have hy : ys.find? Idl.Member.isIndexedGetter = none := by
          apply List.find?_eq_none.mpr
          intro m hm
          exact List.find?_eq_none.mp hx m (hperm.mem_iff.mpr hm)
        rw [hy]
    | some g =>
        have hg : g ∈ xs := List.mem_of_find?_eq_some hx
        cases hy : ys.find? Idl.Member.isIndexedGetter with
        | none => exact absurd (List.find?_some hx) (List.find?_eq_none.mp hy g (hperm.subset hg))
        | some h =>
            have hh : h ∈ xs := hperm.mem_iff.mpr (List.mem_of_find?_eq_some hy)
            exact congrArg some (hagree g hg h hh (List.find?_some hx) (List.find?_some hy))
  simp only [SiblingFacts.of, hsetter, hgetter]

/-! ### Blocks -/

theorem memberBlock_of_siblingFacts (mode : Mode) {d e : Idl.Definition} (hname : d.name = e.name)
    (hfacts : SiblingFacts.of d.members = SiblingFacts.of e.members) (m : Idl.Member) :
    memberBlock mode (.of d) m = memberBlock mode (.of e) m := by
  rw [context_of_eq d, context_of_eq e, hname, hfacts]

theorem memberBlock_withMembers (mode : Mode) (d : Idl.Definition) {xs ys : List Idl.Member}
    (hfacts : SiblingFacts.of xs = SiblingFacts.of ys) (m : Idl.Member) :
    memberBlock mode (.of (d.withMembers xs)) m = memberBlock mode (.of (d.withMembers ys)) m := by
  have hname : (d.withMembers xs).name = (d.withMembers ys).name := rfl
  exact memberBlock_of_siblingFacts mode hname hfacts m

theorem diagnostics_convert_definition (mode : Mode) (kind : Idl.DefinitionKind)
    (d : Idl.Definition) :
    (convert mode [.definition kind d]).diagnostics = (blocks mode d).flatMap Noted.notes := by
  rw [diagnostics_convert, List.flatMap_singleton, blocks, List.flatMap_map,
    ← notes_definitionDeclarations]
  exact List.append_nil _

def nodeValues : Idl.Member := .iterable [.named "Node" false] false

def nodeCount : Idl.Member := .attr ⟨"length", .named "unsigned long" false, true, none⟩

/-- A list of nodes whose iterable stands before the getter and the setter. -/
def nodeList : Idl.Definition where
  name := "NodeList"
  inheritance := none
  members := [
    nodeValues,
    .operation ⟨"", [⟨"index", .named "unsigned long" true, false, false⟩], .named "Node" false,
      some .getter⟩,
    .operation ⟨"", [⟨"index", .named "unsigned long" false, false, false⟩,
      ⟨"node", .named "Node" false, false, false⟩], .named "void" false, some .setter⟩]
  extAttrs := .ofList []

/-- The members in another order and with one more. -/
def countedNodeList : Idl.Definition :=
  nodeList.withMembers (nodeCount :: nodeList.members.reverse)

end IdlTypings.Conversion
