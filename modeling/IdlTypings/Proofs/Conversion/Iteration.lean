import IdlTypings.Proofs.Conversion.Merging
import IdlTypings.Proofs.Conversion.Siblings

/-!
# Iteration over values

An iterable over values is declared without a type for its keys, which are the indices that an
indexed getter takes. Without such a getter nothing comes of the iterable. With one it has five
methods, which agree on the types of keys and values. The keys are numbers, but the getter is found
by the name of its argument's type alone: where it takes an index that may be null, so do the keys.
-/

namespace IdlTypings.Conversion

def iteratorOver (async : Bool) (item : Ts.TypeExpr) : Ts.TypeExpr :=
  .reference (if async then "AsyncIterableIterator" else "IterableIterator") [item]

/-- The methods of an iterable over values that are found by keys. -/
def valueIteration (async : Bool) (key value : Ts.TypeExpr) : List Ts.Member :=
  let symbol := if async then "Symbol.asyncIterator" else "Symbol.iterator"
  let callback := .function
    [⟨"value", value, false, false⟩, ⟨"key", key, false, false⟩,
      ⟨"parent", .array value, false, false⟩] .void
  [.method ⟨.computed symbol, [], iteratorOver async value, false⟩,
    .method ⟨.identifier "entries", [], iteratorOver async (.tuple [key, value]), false⟩,
    .method ⟨.identifier "keys", [], iteratorOver async key, false⟩,
    .method ⟨.identifier "values", [], iteratorOver async value, false⟩,
    .method ⟨.identifier "forEach",
      [⟨"callbackfn", callback, false, false⟩, ⟨"thisArg", .any, true, false⟩], .void, false⟩]

/-- The type of the index that a getter takes. -/
def indexKey (getter : Idl.Member) : Ts.TypeExpr :=
  if getter.takesNullable then .orNull .number else .number

theorem result_toTs_unsignedLong (owner : Option String) (nullable : Bool) :
    ((Idl.TypeExpr.named "unsigned long" nullable).toTs owner).result =
      if nullable then .orNull .number else .number := by
  cases nullable <;> rfl

theorem indexType_of_find {d : Idl.Definition} {getter : Idl.Member}
    (h : d.members.find? Idl.Member.isIndexedGetter = some getter) :
    (Context.of d).indexType? = some (.named "unsigned long" getter.takesNullable) := by
  rw [context_of_eq]
  simp only [SiblingFacts.context, SiblingFacts.of, h, Option.map_some]

theorem contribution_iterable_of_indexType (mode : Mode) {d : Idl.Definition}
    {key : Idl.TypeExpr} (h : (Context.of d).indexType? = some key) (value : Idl.TypeExpr)
    (async : Bool) :
    contribution mode d (.iterable [value] async) =
      valueIteration async (key.toTs (some d.name)).result (value.toTs (some d.name)).result := by
  simp only [contribution, memberBlock, iterableBlock, h]
  rfl

theorem indexKey_eq_number_iff (getter : Idl.Member) :
    indexKey getter = .number ↔ getter.takesNullable = false := by
  unfold indexKey
  cases getter.takesNullable with
  | false => exact iff_of_true rfl rfl
  | true => exact iff_of_false nofun nofun

/-- **Iteration over values.** Nothing comes of an iterable over values exactly if the definition
has no indexed getter. Otherwise five methods come of it, in either mode, with the converted type as
the type of the values throughout. Their keys have the type of the index of the first indexed
getter, which is a number exactly if the index cannot be null. -/
theorem contribution_iterable_of_values (mode : Mode) (d : Idl.Definition) (value : Idl.TypeExpr)
    (async : Bool) :
    (contribution mode d (.iterable [value] async) = [] ↔
      ∀ m ∈ d.members, m.isIndexedGetter = false) ∧
    ∀ getter, d.members.find? Idl.Member.isIndexedGetter = some getter →
      contribution mode d (.iterable [value] async) =
          valueIteration async (indexKey getter) (value.toTs (some d.name)).result ∧
        (indexKey getter = .number ↔ getter.takesNullable = false) := by
  constructor
  · rw [contribution_eq_nil_iff]
    simp [Idl.Member.isSilent]
  · intro getter hgetter
    refine ⟨?_, indexKey_eq_number_iff getter⟩
    rw [contribution_iterable_of_indexType mode (indexType_of_find hgetter),
      result_toTs_unsignedLong]
    rfl

def nodeGetter (nullable : Bool) : Idl.Member :=
  .operation ⟨"item", [⟨"index", .named "unsigned long" nullable, false, false⟩],
    .named "Node" true, some .getter⟩

/-- A getter whose index may be null, behind one whose index may not. -/
def nodeStream : Idl.Definition where
  name := "NodeStream"
  inheritance := none
  members := [.iterable [.named "Node" true] true, nodeGetter false, nodeGetter true]
  extAttrs := .ofList []

theorem contribution_nodeStream :
    nodeStream.members.find? Idl.Member.isIndexedGetter = some (nodeGetter false) ∧
      contribution .runtime nodeStream (.iterable [.named "Node" true] true) =
        valueIteration true .number (.orNull (.name "Node")) := by
  have hgetter : nodeStream.members.find? Idl.Member.isIndexedGetter =
      some (nodeGetter false) := rfl
  obtain ⟨-, hiteration⟩ :=
    contribution_iterable_of_values .runtime nodeStream (.named "Node" true) true
  obtain ⟨hmembers, hnumber⟩ := hiteration (nodeGetter false) hgetter
  rw [hnumber.mpr rfl] at hmembers
  exact ⟨hgetter, hmembers⟩

/-- The keys of an iterable over values need not be numbers. Those of the list of nodes can be null
like the index of its getter. -/
theorem not_forall_keys_number :
    ¬∀ (mode : Mode) (d : Idl.Definition) (value : Idl.TypeExpr) (async : Bool),
      .iterable [value] async ∈ d.members →
      (contribution mode d (.iterable [value] async) = [] ∧
          ∀ m ∈ d.members, m.isIndexedGetter = false) ∨
        (∃ m ∈ d.members, m.isIndexedGetter = true) ∧
          contribution mode d (.iterable [value] async) =
            valueIteration async .number (value.toTs (some d.name)).result := by
  intro h
  obtain ⟨hnone, -⟩ | ⟨-, hnumber⟩ := h .ambient nodeList (.named "Node" false) false (.head _)
  · exact absurd hnone (List.cons_ne_nil _ _)
  · have hnull : contribution .ambient nodeList nodeValues =
        valueIteration false (.orNull .number) (.name "Node") := rfl
    have hsame : valueIteration false (.orNull .number) (.name "Node") =
        valueIteration false .number (.name "Node") := hnull.symm.trans hnumber
    have hkeys : Ts.TypeExpr.orNull .number = .number := by
      simpa [valueIteration, iteratorOver] using hsame
    cases hkeys

end IdlTypings.Conversion
