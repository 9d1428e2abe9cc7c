import IdlTypings.Proofs.Idl.Canonical
import IdlTypings.Proofs.Idl.NormalForm

/-!
# Normal definitions are read back

The canonical nodes of normal definitions load as just these definitions.
-/

namespace IdlTypings.Idl

open Json (Value)

/-! ### Types -/

theorem typesInFields_eq (fields : List (String × Value)) :
    typesInFields fields = ((fields.lookup "idlType").map typesIn).getD [] := by
  induction fields with
  | nil => rfl
  | cons field rest ih =>
      obtain ⟨key, value⟩ := field
      rw [typesInFields]
      by_cases h : key = "idlType"
      · simp [h]
      · rw [if_neg h, ih, List.lookup_cons, beq_false_of_ne (Ne.symm h)]

theorem ofValue_ofFields (fields : List (String × Value)) :
    TypeExpr.ofValue (.ofFields fields) =
      .ofDescriptor (.ofFields fields) (Descriptor.ofFields (fieldsOf (.ofFields fields)))
        (typesInFields (fieldsOf (.ofFields fields))) := rfl

theorem ofValue_descriptor (head : String) (nullable isUnion : Bool) (inner : Value) :
    TypeExpr.ofValue (descriptor head nullable isUnion inner) =
      .ofDescriptor (descriptor head nullable isUnion inner) (.ok ⟨head, nullable, isUnion, inner⟩)
        (typesIn inner) := by
  have hfields : Descriptor.ofFields (fieldsOf (descriptor head nullable isUnion inner)) =
      .ok ⟨head, nullable, isUnion, inner⟩ := by
    simp [Descriptor.ofFields, descriptor, field?, List.lookup_cons, Decoder.string,
      Decoder.boolean, Decoder.any, require]
  have hparts : typesInFields (fieldsOf (descriptor head nullable isUnion inner)) =
      typesIn inner := by
    rw [typesInFields_eq]
    simp [descriptor]
  rw [← hfields, ← hparts]
  exact ofValue_ofFields _

mutual

theorem TypeExpr.ofValue_toValue {type : TypeExpr} (h : type.IsNormal) :
    TypeExpr.ofValue type.toValue = type := by
  match type with
  | .named name nullable =>
      rw [TypeExpr.toValue, ofValue_descriptor]
      rfl
  | .generic head args nullable =>
      have hargs : typesIn (.array (typesToValues args)) = args := typesOfItems_typesToValues h.2
      have hhead : head.isEmpty = false := by simpa using h.1
      rw [TypeExpr.toValue, ofValue_descriptor, hargs]
      simp [TypeExpr.ofDescriptor, Descriptor.type?, hhead]
  | .union members nullable =>
      have hmembers : typesIn (.array (typesToValues members)) = members :=
        typesOfItems_typesToValues h
      rw [TypeExpr.toValue, ofValue_descriptor, hmembers]
      rfl
  | .unsupported raw => exact h
termination_by structural type

theorem typesOfItems_typesToValues {types : List TypeExpr} (h : AreNormal types) :
    typesOfItems (typesToValues types) = types := by
  match types with
  | [] => rfl
  | type :: rest =>
      rw [typesToValues, typesOfItems, TypeExpr.ofValue_toValue h.1,
        typesOfItems_typesToValues h.2]
termination_by structural types

end

/-! ### Members and roots -/

theorem Argument.ofValue_ofFields (fields : List (String × Value)) :
    Argument.ofValue (.ofFields fields) = Argument.ofFields (fieldsOf (.ofFields fields)) := rfl

theorem Argument.ofValue_toValue {a : Argument} (h : a.IsNormal) :
    Argument.ofValue a.toValue = .ok a := by
  rw [Argument.toValue, Argument.ofValue_ofFields]
  simp [Argument.ofFields, field?, List.lookup_cons, Decoder.string, Decoder.boolean, Decoder.any,
    require, TypeExpr.ofValue_toValue h]

theorem list_arguments {arguments : List Argument} (h : ∀ a ∈ arguments, a.IsNormal) :
    Decoder.list Argument.ofValue (argumentsField arguments).2 = .ok arguments :=
  all_map_eq_ok fun a ha => Argument.ofValue_toValue (h a ha)

theorem ofKeyword?_specialField (special : Option Special) :
    Special.ofKeyword? ((special.map Special.keyword).getD "") = special := by
  cases special with
  | none => decide
  | some special => exact Special.ofKeyword?_keyword special

theorem TypeExpr.toValue_ne_null {type : TypeExpr} (h : type ≠ .unsupported .null) :
    type.toValue ≠ .null := by
  cases type with
  | unsupported raw =>
      intro hnull
      exact h (congrArg TypeExpr.unsupported hnull)
  | _ => exact Value.noConfusion

theorem Attribute.ofFields_toNode {a : Attribute} (h : a.type.IsNormal) :
    Attribute.ofFields (fieldsOf (Member.attr a).toNode) = .ok a := by
  simp [Attribute.ofFields, Member.toNode, specialField, field?, List.lookup_cons, Decoder.string,
    Decoder.boolean, Decoder.any, Decoder.nullable, require, TypeExpr.ofValue_toValue h,
    ofKeyword?_specialField]

theorem Operation.ofFields_toNode {op : Operation} (h : (Member.operation op).IsNormal) :
    Operation.ofFields (fieldsOf (Member.operation op).toNode) = .ok op := by
  obtain ⟨harguments, hreturns, hnull⟩ := h
  have hlist := list_arguments harguments
  have htype := returnType_of_ne_null op.special (TypeExpr.toValue_ne_null hnull)
  rw [TypeExpr.ofValue_toValue hreturns] at htype
  simp only [argumentsField] at hlist
  simp [Operation.ofFields, Member.toNode, specialField, argumentsField, field?, List.lookup_cons,
    Decoder.string, Decoder.any, Decoder.nullable, ofKeyword?_specialField, hlist, htype]

theorem Collection.ofFields_iterable (types : List TypeExpr) (async : Bool) :
    Collection.ofFields (fieldsOf (Member.iterable types async).toNode) =
      .ok ⟨types.map TypeExpr.toValue, false, async⟩ := by
  simp [Collection.ofFields, Member.toNode, field?, List.lookup_cons, Decoder.boolean,
    Decoder.sequence, require]

theorem Collection.ofFields_setlike (element : TypeExpr) (readonly : Bool) :
    Collection.ofFields (fieldsOf (Member.setlike element readonly).toNode) =
      .ok ⟨[element.toValue], readonly, false⟩ := by
  simp [Collection.ofFields, Member.toNode, field?, List.lookup_cons, Decoder.boolean,
    Decoder.sequence, require]

theorem Collection.ofFields_maplike (key value : TypeExpr) (readonly : Bool) :
    Collection.ofFields (fieldsOf (Member.maplike key value readonly).toNode) =
      .ok ⟨[key.toValue, value.toValue], readonly, false⟩ := by
  simp [Collection.ofFields, Member.toNode, field?, List.lookup_cons, Decoder.boolean,
    Decoder.sequence, require]

/-- A node of a known kind is read by the fields of that kind. -/
theorem Member.ofNode_of_member (tag : MemberTag) {node : Value} {m : Member}
    (htag : tagOf node = tag.text) (hmember : tag.member node = .ok m) :
    Member.ofNode node = .ok m := by
  rw [Member.ofNode_of_tag htag, inNode_eq_ok_iff]
  exact hmember

theorem Member.ofNode_toNode {m : Member} (h : m.IsNormal) : Member.ofNode m.toNode = .ok m := by
  cases m with
  | attr a =>
      refine ofNode_of_member .attribute (tagOf_ofFields rfl) ?_
      rw [MemberTag.member, Attribute.ofFields_toNode h, map_ok]
  | operation op =>
      refine ofNode_of_member .operation (tagOf_ofFields rfl) ?_
      rw [MemberTag.member, Operation.ofFields_toNode h, map_ok]
  | construct arguments =>
      refine ofNode_of_member .construct (tagOf_ofFields rfl) ?_
      have hlist := list_arguments h
      simp only [argumentsField] at hlist
      simp [MemberTag.member, constructOfFields, Member.toNode, argumentsField, field?, hlist]
  | field name type required =>
      refine ofNode_of_member .field (tagOf_ofFields rfl) ?_
      have htype : TypeExpr.ofValue type.toValue = type := TypeExpr.ofValue_toValue h
      simp [MemberTag.member, fieldOfFields, Member.toNode, field?, List.lookup_cons,
        Decoder.string, Decoder.boolean, Decoder.any, require, htype]
  | constant name type =>
      refine ofNode_of_member .constant (tagOf_ofFields rfl) ?_
      have htype : TypeExpr.ofValue type.toValue = type := TypeExpr.ofValue_toValue h
      simp [MemberTag.member, constantOfFields, Member.toNode, field?, List.lookup_cons,
        Decoder.string, Decoder.any, require, htype]
  | iterable types async =>
      refine ofNode_of_member .iterable (tagOf_ofFields rfl) ?_
      obtain ⟨hlength, htypes⟩ := h
      rw [MemberTag.member, Collection.ofFields_iterable, map_ok]
      rcases types with _ | ⟨first, _ | ⟨second, _ | ⟨third, rest⟩⟩⟩
      · simp at hlength
      · have hfirst := TypeExpr.ofValue_toValue (htypes first (by simp))
        simp [Collection.iterable, hfirst]
      · have hfirst := TypeExpr.ofValue_toValue (htypes first (by simp))
        have hsecond := TypeExpr.ofValue_toValue (htypes second (by simp))
        simp [Collection.iterable, hfirst, hsecond]
      · simp at hlength
  | setlike element readonly =>
      refine ofNode_of_member .setlike (tagOf_ofFields rfl) ?_
      have helement : TypeExpr.ofValue element.toValue = element := TypeExpr.ofValue_toValue h
      simp [MemberTag.member, Collection.ofFields_setlike, Collection.setlike, helement]
  | maplike key value readonly =>
      refine ofNode_of_member .maplike (tagOf_ofFields rfl) ?_
      have hkey : TypeExpr.ofValue key.toValue = key := TypeExpr.ofValue_toValue h.1
      have hvalue : TypeExpr.ofValue value.toValue = value := TypeExpr.ofValue_toValue h.2
      simp [MemberTag.member, Collection.ofFields_maplike, Collection.maplike, hkey, hvalue]
  | unsupported kind raw => exact h

theorem membersOf_map_toNode {members : List Member} (h : ∀ m ∈ members, m.IsNormal) :
    membersOf (members.map Member.toNode) = .ok members := by
  induction members with
  | nil => rfl
  | cons m rest ih =>
      rw [List.map_cons, membersOf, Member.ofNode_toNode (h m (by simp)),
        ih fun other hother => h other (by simp [hother])]
      rfl

theorem identifiers_array (values : List String) :
    identifiers (.array (values.map Value.string)) = values := by
  simp only [identifiers, List.filterMap_map, Function.comp_def, List.filterMap_some]

theorem attrEntry_ofFields (fields : List (String × Value)) :
    attrEntry (.ofFields fields) = attrEntryOfFields (fieldsOf (.ofFields fields)) := rfl

theorem rightHandSide_ofFields (fields : List (String × Value)) :
    Decoder.nullable rightHandSide (.ofFields fields) =
      .ok (some (((fieldsOf (.ofFields fields)).lookup "value").getD .null)) := rfl

theorem attrEntry_attrToValue (entry : AttrEntry) : attrEntry (attrToValue entry) = .ok entry := by
  rw [attrToValue, attrEntry_ofFields]
  simp [attrEntryOfFields, field?, List.lookup_cons, Decoder.string, require,
    rightHandSide_ofFields, identifiersOf, identifiers_array]

theorem insertAttr_of_notMem {name : String} {values : List String} {entries : List AttrEntry}
    (h : name ∉ entries.map Prod.fst) :
    insertAttr name values entries = entries ++ [(name, values)] := by
  induction entries with
  | nil => rfl
  | cons entry rest ih =>
      obtain ⟨n, v⟩ := entry
      simp only [List.map_cons, List.mem_cons, not_or] at h
      rw [insertAttr, if_neg (Ne.symm h.1), ih h.2, List.cons_append]

theorem entries_foldl_insert (entries : List AttrEntry) :
    ∀ attrs : ExtAttrs, ((attrs.entries ++ entries).map Prod.fst).Nodup →
      (entries.foldl (fun attrs (name, values) => attrs.insert name values) attrs).entries =
        attrs.entries ++ entries := by
  induction entries with
  | nil =>
      intro attrs _
      simp
  | cons entry rest ih =>
      intro attrs hnodup
      obtain ⟨name, values⟩ := entry
      have hfresh : name ∉ attrs.entries.map Prod.fst := by
        intro hmem
        rw [List.map_append, List.nodup_append] at hnodup
        exact hnodup.2.2 name hmem name (by simp) rfl
      have hinsert : (attrs.insert name values).entries = attrs.entries ++ [(name, values)] :=
        insertAttr_of_notMem hfresh
      rw [List.foldl_cons, ih, hinsert, List.append_assoc, List.singleton_append]
      rw [hinsert, List.append_assoc, List.singleton_append]
      exact hnodup

theorem ExtAttrs.eq_of_entries_eq {a b : ExtAttrs} (h : a.entries = b.entries) : a = b := by
  cases a
  cases b
  subst h
  rfl

/-- Attributes without repetition keep their order. -/
theorem ofList_entries (attrs : ExtAttrs) : ExtAttrs.ofList attrs.entries = attrs :=
  ExtAttrs.eq_of_entries_eq (entries_foldl_insert attrs.entries .empty attrs.nodup)

theorem list_enumValue (values : List String) :
    Decoder.list enumValue (.array (values.map Value.string)) = .ok values :=
  all_map_eq_ok fun _ _ => rfl

theorem list_attrEntry (entries : List AttrEntry) :
    Decoder.list attrEntry (.array (entries.map attrToValue)) = .ok entries :=
  all_map_eq_ok fun entry _ => attrEntry_attrToValue entry

theorem nullable_inheritanceToValue (inheritance : Option String) :
    Decoder.nullable Decoder.string (inheritanceToValue inheritance) = .ok inheritance := by
  cases inheritance <;> rfl

theorem Definition.ofNode_toNode (kind : DefinitionKind) {d : Definition}
    (h : ∀ m ∈ d.members, m.IsNormal) :
    Definition.ofNode (Root.definition kind d).toNode = .ok d := by
  have hfields : DefinitionFields.ofFields (fieldsOf (Root.definition kind d).toNode) =
      .ok ⟨d.name, d.inheritance, d.members.map Member.toNode, d.extAttrs.entries⟩ := by
    simp [DefinitionFields.ofFields, Root.toNode, field?, List.lookup_cons, Decoder.string,
      Decoder.sequence, require, list_attrEntry, nullable_inheritanceToValue]
  rw [Definition.ofNode, hfields, inNode, ok_bind, membersOf_map_toNode h, ok_bind, ofList_entries]
  rfl

theorem tagOf_definition (kind : DefinitionKind) (d : Definition) :
    tagOf (Root.definition kind d).toNode = (RootTag.definition kind).text := by
  cases kind <;> exact tagOf_ofFields rfl

theorem Root.ofNode?_of_root (tag : RootTag) {node : Value} {root : Root}
    (htag : tagOf node = tag.text) (hroot : tag.root? node = .ok (some root)) :
    Root.ofNode? node = .ok (some root) := by
  rw [Root.ofNode?_of_tag htag]
  exact hroot

theorem Root.ofNode?_toNode {root : Root} (h : root.IsNormal) :
    Root.ofNode? root.toNode = .ok (some root) := by
  cases root with
  | definition kind d =>
      rw [Root.ofNode?_of_tag (tagOf_definition kind d), RootTag.root?,
        Definition.ofNode_toNode kind h]
      rfl
  | includes target mixin =>
      refine ofNode?_of_root .includes (tagOf_ofFields rfl) ?_
      simp [RootTag.root?, includesOfFields, Root.toNode, field?, List.lookup_cons,
        Decoder.string, require, inNode]
  | enumeration name values =>
      refine ofNode?_of_root .enumeration (tagOf_ofFields rfl) ?_
      simp [RootTag.root?, enumerationOfFields, Root.toNode, field?, List.lookup_cons,
        Decoder.string, require, inNode, list_enumValue]
  | callback name returns arguments =>
      refine ofNode?_of_root .callback (tagOf_ofFields rfl) ?_
      have hreturns : TypeExpr.ofValue returns.toValue = returns := TypeExpr.ofValue_toValue h.1
      have hlist := list_arguments h.2
      simp only [argumentsField] at hlist
      simp [RootTag.root?, callbackOfFields, Root.toNode, argumentsField, field?, List.lookup_cons,
        Decoder.string, Decoder.any, require, inNode, hlist, hreturns]
  | typedef name type =>
      refine ofNode?_of_root .typedef (tagOf_ofFields rfl) ?_
      have htype : TypeExpr.ofValue type.toValue = type := TypeExpr.ofValue_toValue h
      simp [RootTag.root?, typedefOfFields, Root.toNode, field?, List.lookup_cons, Decoder.string,
        Decoder.any, require, inNode, htype]
  | unsupported kind raw => exact h

theorem rootsOf_map_toNode {roots : List Root} (h : ∀ root ∈ roots, root.IsNormal) :
    rootsOf (roots.map Root.toNode) = .ok roots := by
  induction roots with
  | nil => rfl
  | cons root rest ih =>
      rw [List.map_cons, rootsOf, Root.ofNode?_toNode (h root (by simp)),
        ih fun other hother => h other (by simp [hother])]
      rfl

/-- **Normal form.** However definitions were spelled, what they load as is what their canonical
nodes denote. -/
theorem load_toNode_of_load {value : Value} {roots : List Root} (h : load value = .ok roots) :
    load (.array (roots.map Root.toNode)) = .ok roots := by
  have hnormal : ∀ root ∈ roots, root.IsNormal := by
    cases value with
    | array nodes => exact isNormal_rootsOf h
    | _ => cases h
  exact rootsOf_map_toNode hnormal

/-- A file in which little is spelled canonically. -/
def looseSpelling : Value :=
  .array [.object [("type", .string "eof")],
    .object [
      ("extAttrs", .array [.array [.string "Exposed", .array [.string "Worker"]],
        .object [("name", .string "Exposed")]]),
      ("members", .array [
        .object [("arguments", .array [.array [.string "key",
            .array [.string "", .bool false, .bool false, .string "long"]]]),
          ("idlType", .null), ("special", .string "legacy"), ("type", .string "operation")],
        .object [("idlType", .array []), ("type", .string "iterable")]]),
      ("name", .string "Odd"), ("partial", .bool true), ("type", .string "interface mixin")]]

def looseRoots : List Root :=
  [.definition .mixin
    { name := "Odd"
      inheritance := none
      members := [
        .operation ⟨"", [⟨"key", .named "long" false, false, false⟩], .named "void" false, none⟩,
        .unsupported "iterable" (.object [("idlType", .array []), ("type", .string "iterable")])]
      extAttrs := .ofList [("Exposed", [])] }]

theorem load_looseSpelling :
    load looseSpelling = .ok looseRoots ∧
      load (.array (looseRoots.map Root.toNode)) = .ok looseRoots :=
  ⟨rfl, load_toNode_of_load (show load looseSpelling = .ok looseRoots from rfl)⟩

end IdlTypings.Idl
