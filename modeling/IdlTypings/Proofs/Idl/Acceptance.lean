import IdlTypings.Proofs.Idl.Decoding
import IdlTypings.Proofs.Idl.Schema

/-!
# What is loaded

A JSON value loads exactly if it follows the schema. A record is read field by field, and that goes
on as long as each field follows its rule. So there is one lemma for a field that has to be there,
one for a field that may be absent and, for records written as lists, one each for an item; a record
then takes one step for each of its rules, in the order in which its fields are read.
-/

namespace IdlTypings.Idl

open Json (Value)

def Succeeds {ε α : Type} (x : Except ε α) : Prop := ∃ a, x = .ok a

def Decoder.Accepts {α : Type} (item : Decoder α) (value : Value) : Prop := Succeeds (item value)

section Reading

variable {ε α β : Type}

@[simp]
theorem succeeds_ok (a : α) : Succeeds (.ok a : Except ε α) := ⟨a, rfl⟩

@[simp]
theorem succeeds_pure (a : α) : Succeeds (pure a : Except ε α) := ⟨a, rfl⟩

@[simp]
theorem not_succeeds_error (e : ε) : ¬Succeeds (.error e : Except ε α) := nofun

@[simp]
theorem error_bind (e : ε) (f : α → Except ε β) : (.error e : Except ε α) >>= f = .error e := rfl

@[simp]
theorem map_error (f : α → β) (e : ε) : f <$> (.error e : Except ε α) = .error e := rfl

theorem succeeds_bind_iff {x : Except ε α} {f : α → Except ε β} :
    Succeeds (x >>= f) ↔ ∃ a, x = .ok a ∧ Succeeds (f a) := by
  cases x <;> simp

@[simp]
theorem succeeds_map_iff {f : α → β} {x : Except ε α} : Succeeds (f <$> x) ↔ Succeeds x := by
  cases x <;> simp

@[simp]
theorem require_none (key : String) :
    (require key none : Decoding α) = .error (.missingField key) := rfl

@[simp]
theorem require_some (key : String) (a : α) : require key (some a) = .ok a := rfl

theorem require_eq_ok_iff {key : String} {found : Option α} {a : α} :
    require key found = .ok a ↔ found = some a := by
  cases found <;> simp

@[simp]
theorem succeeds_inNode_iff {node : Value} {x : Decoding α} :
    Succeeds (inNode node x) ↔ Succeeds x := by
  simp only [Succeeds, inNode_eq_ok_iff]

/-! ### Values -/

theorem accepts_any (value : Value) : Decoder.any.Accepts value ↔ Anything value :=
  ⟨fun _ => trivial, fun _ => ⟨value, rfl⟩⟩

theorem accepts_string (value : Value) : Decoder.string.Accepts value ↔ IsString value := by
  cases value <;> simp [Decoder.Accepts, Decoder.string, IsString]

theorem accepts_boolean (value : Value) : Decoder.boolean.Accepts value ↔ IsBoolean value := by
  cases value <;> simp [Decoder.Accepts, Decoder.boolean, IsBoolean]

theorem accepts_sequence (value : Value) :
    Decoder.sequence.Accepts value ↔ ListOf Anything value := by
  cases value <;> simp [Decoder.Accepts, Decoder.sequence, ListOf, Anything]

theorem succeeds_all_iff {item : Decoder α} {values : List Value} :
    Succeeds (Decoder.all item values) ↔ ∀ value ∈ values, item.Accepts value := by
  induction values with
  | nil => simp [Decoder.all]
  | cons value rest ih =>
      rw [List.forall_mem_cons, ← ih, Decoder.Accepts, Decoder.all]
      cases item value <;> simp

section Shaped

variable {item : Decoder α} {shape : Value → Prop}
  (hitem : ∀ value, item.Accepts value ↔ shape value)

include hitem

theorem accepts_nullable (value : Value) :
    (Decoder.nullable item).Accepts value ↔ OrNull shape value := by
  rw [OrNull, ← hitem]
  cases value <;> simp [Decoder.Accepts, Decoder.nullable]

theorem accepts_list (value : Value) :
    (Decoder.list item).Accepts value ↔ ListOf shape value := by
  cases value with
  | array values =>
      have hall : (Decoder.list item).Accepts (.array values) ↔ ∀ value ∈ values, shape value := by
        simp only [← hitem]
        exact succeeds_all_iff
      simpa [ListOf] using hall
  | _ => simp [Decoder.Accepts, Decoder.list, Decoder.sequence, ListOf]

/-! ### Fields -/

variable {fields : List (String × Value)} {key : String} {rest : Option α → Decoding β}
  {rules : List FieldRule}

theorem succeeds_may (hrest : ∀ a, Succeeds (rest a) ↔ Obeys fields rules) :
    Succeeds (field? fields key item >>= rest) ↔ Obeys fields (may key shape :: rules) := by
  rw [obeys_cons, field?]
  cases hlookup : fields.lookup key with
  | none => simp [holds_may_of_none hlookup, hrest]
  | some value =>
      rw [holds_may_of_some hlookup, ← hitem, Decoder.Accepts, optional_some]
      cases item value <;> simp [hrest]

theorem succeeds_must (hnone : ¬Succeeds (rest none))
    (hrest : ∀ a, Succeeds (rest (some a)) ↔ Obeys fields rules) :
    Succeeds (field? fields key item >>= rest) ↔ Obeys fields (must key shape :: rules) := by
  rw [obeys_cons, field?]
  cases hlookup : fields.lookup key with
  | none => simp [holds_must_of_none hlookup, hnone]
  | some value =>
      rw [holds_must_of_some hlookup, ← hitem, Decoder.Accepts, optional_some]
      cases item value <;> simp [hrest]

/-! ### Fields of a list -/

section InOrder

variable {items : List Value} {index : Nat}

theorem succeeds_requireItem {record : Shape} {width : Nat} {next : α → Decoding β}
    (hnext : ∀ a, Succeeds (next a) ↔ ObeysInOrder (items.drop (index + 1)) rules) :
    Succeeds (requireItem record width items index item >>= next) ↔
      ObeysInOrder (items.drop index) (must key shape :: rules) := by
  cases hvalue : items[index]? with
  | none =>
      rw [requireItem, hvalue, List.drop_eq_nil_of_le (List.getElem?_eq_none_iff.mp hvalue)]
      simp [ObeysInOrder]
  | some value =>
      have hread : requireItem record width items index item = item value := by
        rw [requireItem, hvalue]
      rw [hread, List.drop_eq_getElem?_toList_append, hvalue, Option.toList_some,
        List.singleton_append, obeysInOrder_cons, shape_must, ← hitem, Decoder.Accepts]
      cases item value <;> simp [hnext]

theorem succeeds_item
    (hrest : ∀ a, Succeeds (rest a) ↔ ObeysInOrder (items.drop (index + 1)) rules) :
    Succeeds (item? items index item >>= rest) ↔
      ObeysInOrder (items.drop index) (may key shape :: rules) := by
  unfold item?
  cases hvalue : items[index]? with
  | none =>
      have hlength : items.length ≤ index := List.getElem?_eq_none_iff.mp hvalue
      rw [optional_none, ok_bind, hrest, List.drop_eq_nil_of_le (by omega),
        List.drop_eq_nil_of_le hlength]
      simp [ObeysInOrder, may]
  | some value =>
      rw [List.drop_eq_getElem?_toList_append, hvalue, Option.toList_some, List.singleton_append,
        obeysInOrder_cons, shape_may, ← hitem, Decoder.Accepts, optional_some]
      cases item value <;> simp [hrest]

end InOrder

end Shaped

theorem succeeds_requireWidth {width : Nat} {items : List Value} {next : Unit → Decoding β}
    (hnext : Succeeds (next ())) :
    Succeeds (requireWidth width items >>= next) ↔ ObeysInOrder (items.drop width) [] := by
  unfold requireWidth
  split
  · rename_i hlength
    rw [List.drop_eq_nil_of_le hlength]
    exact iff_of_true hnext nofun
  · rename_i hlength
    cases hdrop : items.drop width with
    | nil => exact absurd (List.drop_eq_nil_iff.mp hdrop) hlength
    | cons value values => exact iff_of_false nofun id

end Reading

/-! ### Arguments and attributes -/

theorem succeeds_argumentOfFields (fields : List (String × Value)) :
    Succeeds (Argument.ofFields fields) ↔
      Obeys fields
        [must "idlType" Anything, must "name" IsString, may "optional" IsBoolean,
          may "variadic" IsBoolean] := by
  refine succeeds_must accepts_any (by simp [succeeds_bind_iff]) fun type => ?_
  refine succeeds_must accepts_string (by simp [succeeds_bind_iff]) fun name => ?_
  refine succeeds_may accepts_boolean fun optional => ?_
  refine succeeds_may accepts_boolean fun variadic => ?_
  exact iff_of_true ⟨_, rfl⟩ obeys_nil

theorem succeeds_argumentOfItems (items : List Value) :
    Succeeds (Argument.ofItems items) ↔
      ObeysInOrder items
        [must "name" IsString, must "idlType" Anything, may "optional" IsBoolean,
          may "variadic" IsBoolean] := by
  refine succeeds_requireItem accepts_string fun name => ?_
  refine succeeds_requireItem accepts_any fun type => ?_
  refine succeeds_item accepts_boolean fun optional => ?_
  refine succeeds_item accepts_boolean fun variadic => ?_
  exact succeeds_requireWidth ⟨_, rfl⟩

theorem accepts_argument (value : Value) : Argument.ofValue.Accepts value ↔ IsArgument value := by
  cases value with
  | object fields =>
      refine (succeeds_argumentOfFields fields).trans ?_
      simp only [IsArgument, IsRecord, obeys_cons]
      exact and_left_comm
  | array items => exact succeeds_argumentOfItems items
  | _ => exact iff_of_false nofun id

theorem accepts_rightHandSide (value : Value) :
    rightHandSide.Accepts value ↔ IsRightHandSide value := by
  cases value with
  | object fields =>
      have hvalue : (may "value" Anything).Holds fields := by
        cases hlookup : fields.lookup "value" with
        | none => exact holds_may_of_none hlookup
        | some value => exact (holds_may_of_some hlookup).mpr trivial
      exact iff_of_true ⟨_, rfl⟩ (obeys_cons.mpr ⟨hvalue, obeys_nil⟩)
  | array items =>
      match items with
      | [] => exact iff_of_true ⟨_, rfl⟩ (by simp [IsRightHandSide, IsRecord, ObeysInOrder])
      | [value] =>
          exact iff_of_true ⟨_, rfl⟩ (by simp [IsRightHandSide, IsRecord, ObeysInOrder, Anything])
      | _ :: _ :: _ => exact iff_of_false nofun And.right
  | _ => exact iff_of_false nofun id

theorem succeeds_attrEntryOfFields (fields : List (String × Value)) :
    Succeeds (attrEntryOfFields fields) ↔
      Obeys fields [must "name" IsString, may "rhs" (OrNull IsRightHandSide)] := by
  refine succeeds_must accepts_string (by simp [succeeds_bind_iff]) fun name => ?_
  refine succeeds_may (accepts_nullable accepts_rightHandSide) fun side => ?_
  exact iff_of_true ⟨_, rfl⟩ obeys_nil

theorem succeeds_attrEntryOfItems (items : List Value) :
    Succeeds (attrEntryOfItems items) ↔
      ObeysInOrder items [must "name" IsString, may "rhs" (OrNull IsRightHandSide)] := by
  refine succeeds_requireItem accepts_string fun name => ?_
  refine succeeds_item (accepts_nullable accepts_rightHandSide) fun side => ?_
  exact succeeds_requireWidth ⟨_, rfl⟩

theorem accepts_attrEntry (value : Value) : Decoder.Accepts attrEntry value ↔ IsExtAttr value := by
  cases value with
  | object fields => exact succeeds_attrEntryOfFields fields
  | array items => exact succeeds_attrEntryOfItems items
  | _ => exact iff_of_false nofun id

theorem accepts_enumValue (value : Value) : enumValue.Accepts value ↔ IsEnumValue value := by
  cases value with
  | object fields =>
      rw [IsEnumValue, Decoder.Accepts, enumValue]
      cases hlookup : fields.lookup "value" with
      | none => exact iff_of_false (not_succeeds_error _) (holds_must_of_none hlookup)
      | some value =>
          rw [holds_must_of_some hlookup, ← accepts_string]
          cases value <;> simp [Decoder.Accepts, Decoder.string]
  | string s => exact iff_of_true ⟨s, rfl⟩ trivial
  | _ => exact iff_of_false (not_succeeds_error _) id

theorem accepts_arguments (value : Value) :
    (Decoder.list Argument.ofValue).Accepts value ↔ ListOf IsArgument value :=
  accepts_list accepts_argument value

/-! ### Members -/

section Fields

variable (fields : List (String × Value))

theorem succeeds_attribute :
    Succeeds (Attribute.ofFields fields) ↔ Obeys fields MemberTag.attribute.rules := by
  refine succeeds_must accepts_any (by simp [succeeds_bind_iff]) fun type => ?_
  refine succeeds_must accepts_string (by simp [succeeds_bind_iff]) fun name => ?_
  refine succeeds_may accepts_boolean fun readonly => ?_
  refine succeeds_may (accepts_nullable accepts_string) fun special => ?_
  exact iff_of_true ⟨_, rfl⟩ obeys_nil

theorem succeeds_operation :
    Succeeds (Operation.ofFields fields) ↔ Obeys fields MemberTag.operation.rules := by
  refine succeeds_may accepts_arguments fun arguments => ?_
  refine succeeds_may accepts_any fun type => ?_
  refine succeeds_may (accepts_nullable accepts_string) fun name => ?_
  refine succeeds_may (accepts_nullable accepts_string) fun special => ?_
  exact iff_of_true ⟨_, rfl⟩ obeys_nil

theorem succeeds_construct :
    Succeeds (constructOfFields fields) ↔ Obeys fields MemberTag.construct.rules := by
  refine succeeds_may accepts_arguments fun arguments => ?_
  exact iff_of_true ⟨_, rfl⟩ obeys_nil

theorem succeeds_field :
    Succeeds (fieldOfFields fields) ↔ Obeys fields MemberTag.field.rules := by
  refine succeeds_must accepts_any (by simp [succeeds_bind_iff]) fun type => ?_
  refine succeeds_must accepts_string (by simp [succeeds_bind_iff]) fun name => ?_
  refine succeeds_may accepts_boolean fun required => ?_
  exact iff_of_true ⟨_, rfl⟩ obeys_nil

theorem succeeds_constant :
    Succeeds (constantOfFields fields) ↔ Obeys fields MemberTag.constant.rules := by
  refine succeeds_must accepts_any (by simp [succeeds_bind_iff]) fun type => ?_
  refine succeeds_must accepts_string (by simp) fun name => ?_
  exact iff_of_true ⟨_, rfl⟩ obeys_nil

theorem succeeds_collection :
    Succeeds (Collection.ofFields fields) ↔ Obeys fields MemberTag.iterable.rules := by
  refine succeeds_may accepts_boolean fun async => ?_
  refine succeeds_must accepts_sequence (by simp [succeeds_bind_iff]) fun types => ?_
  refine succeeds_may accepts_boolean fun readonly => ?_
  exact iff_of_true ⟨_, rfl⟩ obeys_nil

end Fields

theorem succeeds_member (tag : MemberTag) (node : Value) :
    Succeeds (tag.member node) ↔ Obeys (fieldsOf node) tag.rules := by
  match tag with
  | .attribute => exact succeeds_map_iff.trans (succeeds_attribute _)
  | .operation => exact succeeds_map_iff.trans (succeeds_operation _)
  | .construct => exact succeeds_construct _
  | .field => exact succeeds_field _
  | .constant => exact succeeds_constant _
  | .iterable | .setlike | .maplike => exact succeeds_map_iff.trans (succeeds_collection _)

/-! ### Nodes -/

theorem tagOf_eq_iff {node : Value} {tag : String} (h : tag ≠ "") :
    tagOf node = tag ↔
      ∃ fields, node = .object fields ∧ fields.lookup "type" = some (.string tag) := by
  cases node with
  | object fields =>
      simp only [tagOf, Value.field?, Value.object.injEq, exists_eq_left']
      split
      · rename_i tag' hlookup
        simp [hlookup]
      · rename_i hlookup
        exact iff_of_false (Ne.symm h) (hlookup tag)
  | _ => exact iff_of_false (Ne.symm h) (by simp)

section Tagged

variable {Tag : Type} {text : Tag → String} {rules : Tag → List FieldRule} {node : Value}

theorem isTagged_iff (htext : ∀ tag, text tag ≠ "") :
    IsTagged text rules node ↔
      ∀ tag, tagOf node = text tag → Obeys (fieldsOf node) (rules tag) := by
  constructor
  · intro h tag htag
    obtain ⟨fields, rfl, hlookup⟩ := (tagOf_eq_iff (htext tag)).mp htag
    exact h fields tag rfl hlookup
  · rintro h fields tag rfl hlookup
    exact h tag ((tagOf_eq_iff (htext tag)).mpr ⟨fields, rfl, hlookup⟩)

/-- Whether tags are looked up by their text decides which rules a node has to follow. -/
theorem succeeds_iff_isTagged {ε α : Type} {x : Except ε α} {ofText? : String → Option Tag}
    (htext : ∀ tag, text tag ≠ "") (hofText : ∀ tag, ofText? (text tag) = some tag)
    (htextOf : ∀ t tag, ofText? t = some tag → t = text tag)
    (hknown : ∀ tag, ofText? (tagOf node) = some tag →
      (Succeeds x ↔ Obeys (fieldsOf node) (rules tag)))
    (hunknown : ofText? (tagOf node) = none → Succeeds x) :
    Succeeds x ↔ IsTagged text rules node := by
  rw [isTagged_iff htext]
  cases htag : ofText? (tagOf node) with
  | none =>
      refine iff_of_true (hunknown htag) fun tag htext => ?_
      rw [htext, hofText] at htag
      cases htag
  | some tag =>
      refine (hknown tag htag).trans ⟨fun h other hother => ?_, fun h => h tag (htextOf _ _ htag)⟩
      rw [hother, hofText] at htag
      cases htag
      exact h

end Tagged

theorem MemberTag.eq_text_of_ofText? (text : String) (tag : MemberTag)
    (h : MemberTag.ofText? text = some tag) : text = tag.text := by
  unfold MemberTag.ofText? at h
  have htext := List.find?_some h
  exact (beq_iff_eq.mp htext).symm

theorem RootTag.eq_text_of_ofText? (text : String) (tag : RootTag)
    (h : RootTag.ofText? text = some tag) : text = tag.text := by
  unfold RootTag.ofText? at h
  have htext := List.find?_some h
  exact (beq_iff_eq.mp htext).symm

theorem MemberTag.text_ne_empty (tag : MemberTag) : tag.text ≠ "" := by
  cases tag <;> decide

theorem RootTag.text_ne_empty (tag : RootTag) : tag.text ≠ "" := by
  cases tag with
  | definition kind => cases kind <;> decide
  | _ => decide

theorem succeeds_memberOfNode (node : Value) : Succeeds (Member.ofNode node) ↔ IsMember node := by
  unfold Member.ofNode
  refine succeeds_iff_isTagged MemberTag.text_ne_empty MemberTag.ofText?_text
    MemberTag.eq_text_of_ofText? (fun tag htag => ?_) fun htag => ?_
  · rw [htag]
    exact succeeds_inNode_iff.trans (succeeds_member tag node)
  · rw [htag]
    exact ⟨_, rfl⟩

theorem succeeds_membersOf (nodes : List Value) :
    Succeeds (membersOf nodes) ↔ ∀ node ∈ nodes, IsMember node := by
  induction nodes with
  | nil => simp [membersOf]
  | cons node rest ih =>
      rw [List.forall_mem_cons, ← ih, ← succeeds_memberOfNode, membersOf]
      cases Member.ofNode node <;> simp

/-! ### Definitions -/

theorem sequence_eq_ok_iff {value : Value} {items : List Value} :
    Decoder.sequence value = .ok items ↔ value = .array items := by
  cases value <;> simp [Decoder.sequence]

theorem succeeds_definitionFields (fields : List (String × Value)) :
    Succeeds (DefinitionFields.ofFields fields) ↔
      Obeys fields
        [may "extAttrs" (ListOf IsExtAttr), may "inheritance" (OrNull IsString),
          may "members" (ListOf Anything), must "name" IsString] := by
  refine succeeds_may (accepts_list accepts_attrEntry) fun extAttrs => ?_
  refine succeeds_may (accepts_nullable accepts_string) fun inheritance => ?_
  refine succeeds_may accepts_sequence fun members => ?_
  refine succeeds_must accepts_string (by simp) fun name => ?_
  exact iff_of_true ⟨_, rfl⟩ obeys_nil

theorem obeys_definition_iff (kind : DefinitionKind) (fields : List (String × Value)) :
    Obeys fields (RootTag.definition kind).rules ↔
      Succeeds (DefinitionFields.ofFields fields) ∧
        (may "members" (ListOf IsMember)).Holds fields := by
  have hlist : (may "members" (ListOf IsMember)).Holds fields →
      (may "members" (ListOf Anything)).Holds fields := by
    intro h
    cases hlookup : fields.lookup "members" with
    | none => exact holds_may_of_none hlookup
    | some value =>
        obtain ⟨items, rfl, -⟩ := (holds_may_of_some hlookup).mp h
        exact (holds_may_of_some hlookup).mpr ⟨items, rfl, fun _ _ => trivial⟩
  rw [succeeds_definitionFields]
  simp only [RootTag.rules, obeys_cons]
  constructor
  · rintro ⟨hattrs, hinheritance, hmembers, hname⟩
    exact ⟨⟨hattrs, hinheritance, hlist hmembers, hname⟩, hmembers⟩
  · rintro ⟨⟨hattrs, hinheritance, -, hname⟩, hmembers⟩
    exact ⟨hattrs, hinheritance, hmembers, hname⟩

theorem holds_members_iff {fields : List (String × Value)} {d : DefinitionFields}
    (h : DefinitionFields.ofFields fields = .ok d) :
    (may "members" (ListOf IsMember)).Holds fields ↔ ∀ node ∈ d.members, IsMember node := by
  simp only [DefinitionFields.ofFields, bind_eq_ok_iff, pure_eq_ok_iff] at h
  obtain ⟨-, -, -, -, nodes, hnodes, -, -, -, -, rfl⟩ := h
  obtain ⟨hlookup, rfl⟩ | ⟨value, items, hlookup, hitems, rfl⟩ := exists_of_field?_eq_ok hnodes
  · exact iff_of_true (holds_may_of_none hlookup) nofun
  · rw [holds_may_of_some hlookup, sequence_eq_ok_iff.mp hitems]
    simp [ListOf]

theorem succeeds_definition (kind : DefinitionKind) (node : Value) :
    Succeeds (Definition.ofNode node) ↔ Obeys (fieldsOf node) (RootTag.definition kind).rules := by
  rw [obeys_definition_iff, Definition.ofNode]
  cases hfields : DefinitionFields.ofFields (fieldsOf node) with
  | error e => simp [inNode]
  | ok d => simp [inNode, succeeds_membersOf, holds_members_iff hfields]

/-! ### Roots -/

section Fields

variable (fields : List (String × Value))

theorem succeeds_includes :
    Succeeds (includesOfFields fields) ↔ Obeys fields RootTag.includes.rules := by
  refine succeeds_must accepts_string (by simp [succeeds_bind_iff]) fun mixin => ?_
  refine succeeds_must accepts_string (by simp) fun target => ?_
  exact iff_of_true ⟨_, rfl⟩ obeys_nil

theorem succeeds_enumeration :
    Succeeds (enumerationOfFields fields) ↔ Obeys fields RootTag.enumeration.rules := by
  refine succeeds_must accepts_string (by simp [succeeds_bind_iff]) fun name => ?_
  refine succeeds_must (accepts_list accepts_enumValue) (by simp) fun values => ?_
  exact iff_of_true ⟨_, rfl⟩ obeys_nil

theorem succeeds_callback :
    Succeeds (callbackOfFields fields) ↔ Obeys fields RootTag.callback.rules := by
  refine succeeds_may accepts_arguments fun arguments => ?_
  refine succeeds_must accepts_any (by simp [succeeds_bind_iff]) fun type => ?_
  refine succeeds_must accepts_string (by simp) fun name => ?_
  exact iff_of_true ⟨_, rfl⟩ obeys_nil

theorem succeeds_typedef :
    Succeeds (typedefOfFields fields) ↔ Obeys fields RootTag.typedef.rules := by
  refine succeeds_must accepts_any (by simp [succeeds_bind_iff]) fun type => ?_
  refine succeeds_must accepts_string (by simp) fun name => ?_
  exact iff_of_true ⟨_, rfl⟩ obeys_nil

end Fields

theorem succeeds_root (tag : RootTag) (node : Value) :
    Succeeds (tag.root? node) ↔ Obeys (fieldsOf node) tag.rules := by
  cases tag with
  | eof => exact iff_of_true ⟨_, rfl⟩ obeys_nil
  | definition kind => exact succeeds_map_iff.trans (succeeds_definition kind node)
  | includes => exact succeeds_map_iff.trans (succeeds_inNode_iff.trans (succeeds_includes _))
  | enumeration => exact succeeds_map_iff.trans (succeeds_inNode_iff.trans (succeeds_enumeration _))
  | callback => exact succeeds_map_iff.trans (succeeds_inNode_iff.trans (succeeds_callback _))
  | typedef => exact succeeds_map_iff.trans (succeeds_inNode_iff.trans (succeeds_typedef _))

theorem succeeds_rootOfNode (node : Value) : Succeeds (Root.ofNode? node) ↔ IsRoot node := by
  unfold Root.ofNode?
  refine succeeds_iff_isTagged RootTag.text_ne_empty RootTag.ofText?_text
    RootTag.eq_text_of_ofText? (fun tag htag => ?_) fun htag => ?_
  · rw [htag]
    exact succeeds_root tag node
  · rw [htag]
    exact ⟨_, rfl⟩

theorem succeeds_rootsOf (nodes : List Value) :
    Succeeds (rootsOf nodes) ↔ ∀ node ∈ nodes, IsRoot node := by
  induction nodes with
  | nil => simp [rootsOf]
  | cons node rest ih =>
      rw [List.forall_mem_cons, ← ih, ← succeeds_rootOfNode, rootsOf]
      cases Root.ofNode? node <;> simp

/-- **Acceptance.** A value loads exactly if it is a list of nodes that follow the schema. -/
theorem load_eq_ok_iff (value : Value) :
    (∃ roots, load value = .ok roots) ↔ ListOf IsRoot value := by
  cases value with
  | array nodes => simpa [load, ListOf, Succeeds] using succeeds_rootsOf nodes
  | _ => exact iff_of_false nofun nofun

end IdlTypings.Idl
