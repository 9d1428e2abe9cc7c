import IdlTypings.Proofs.Idl.Decoding

/-!
# Loaded definitions are normal

Loading accepts many spellings of a definition and forgets which of them was used. What it gives is
normal: generics have a name, iterables one or two types, and what was kept as it was found is not
understood when it is found again.
-/

namespace IdlTypings.Idl

open Json (Value)

mutual

def TypeExpr.IsNormal : TypeExpr → Prop
  | .named _ _ => True
  | .generic head args _ => head ≠ "" ∧ AreNormal args
  | .union members _ => AreNormal members
  | .unsupported raw => TypeExpr.ofValue raw = .unsupported raw
termination_by structural type => type

def AreNormal : List TypeExpr → Prop
  | [] => True
  | type :: rest => type.IsNormal ∧ AreNormal rest
termination_by structural types => types

end

theorem isNormal_ofDescriptor {raw : Value} {descriptor : Decoding Descriptor}
    {parts : List TypeExpr} (hparts : AreNormal parts)
    (hraw : TypeExpr.ofValue raw = .ofDescriptor raw descriptor parts) :
    (TypeExpr.ofDescriptor raw descriptor parts).IsNormal := by
  cases descriptor with
  | error e => exact hraw
  | ok d =>
      cases htype : d.type? parts with
      | none =>
          have hunsupported : TypeExpr.ofDescriptor raw (.ok d) parts = .unsupported raw := by
            simp [TypeExpr.ofDescriptor, htype]
          rw [hunsupported] at hraw ⊢
          exact hraw
      | some type =>
          have hsupported : TypeExpr.ofDescriptor raw (.ok d) parts = type := by
            simp [TypeExpr.ofDescriptor, htype]
          rw [hsupported]
          unfold Descriptor.type? at htype
          split at htype
          · cases htype
            exact hparts
          · rename_i hhead
            cases htype
            exact ⟨by simpa using hhead, hparts⟩
          · cases htype
            trivial
          · cases htype

mutual

theorem TypeExpr.isNormal_ofValue (value : Value) : (TypeExpr.ofValue value).IsNormal := by
  match value with
  | .object fields => exact isNormal_ofDescriptor (areNormal_typesInFields fields) rfl
  | .array [head, nullable, isUnion, inner] =>
      exact isNormal_ofDescriptor (areNormal_typesIn inner) rfl
  | .null | .bool _ | .number _ | .string _ => rfl
  | .array [] | .array [_] | .array [_, _] | .array [_, _, _] => rfl
  | .array (_ :: _ :: _ :: _ :: _ :: _) => rfl
termination_by structural value

theorem areNormal_typesInFields (fields : List (String × Value)) :
    AreNormal (typesInFields fields) := by
  match fields with
  | [] => trivial
  | (key, value) :: rest =>
      rw [typesInFields]
      split
      · exact areNormal_typesIn value
      · exact areNormal_typesInFields rest
termination_by structural fields

theorem areNormal_typesIn (value : Value) : AreNormal (typesIn value) := by
  match value with
  | .array items => exact areNormal_typesOfItems items
  | .null | .bool _ | .number _ | .string _ | .object _ => trivial
termination_by structural value

theorem areNormal_typesOfItems (items : List Value) : AreNormal (typesOfItems items) := by
  match items with
  | [] => trivial
  | item :: rest => exact ⟨TypeExpr.isNormal_ofValue item, areNormal_typesOfItems rest⟩
termination_by structural items

end

def Argument.IsNormal (a : Argument) : Prop := a.type.IsNormal

def Member.IsNormal : Member → Prop
  | .attr a => a.type.IsNormal
  | .operation op =>
      (∀ a ∈ op.arguments, a.IsNormal) ∧ op.returns.IsNormal ∧ op.returns ≠ .unsupported .null
  | .construct arguments => ∀ a ∈ arguments, a.IsNormal
  | .field _ type _ => type.IsNormal
  | .constant _ type => type.IsNormal
  | .iterable types _ =>
      (types.length = 1 ∨ types.length = 2) ∧ ∀ type ∈ types, type.IsNormal
  | .setlike element _ => element.IsNormal
  | .maplike key value _ => key.IsNormal ∧ value.IsNormal
  | .unsupported kind raw => Member.ofNode raw = .ok (.unsupported kind raw)

def Root.IsNormal : Root → Prop
  | .definition _ d => ∀ m ∈ d.members, m.IsNormal
  | .includes _ _ => True
  | .enumeration _ _ => True
  | .callback _ returns arguments => returns.IsNormal ∧ ∀ a ∈ arguments, a.IsNormal
  | .typedef _ type => type.IsNormal
  | .unsupported kind raw => Root.ofNode? raw = .ok (some (.unsupported kind raw))

theorem Argument.isNormal_ofValue (value : Value) (a : Argument)
    (h : Argument.ofValue value = .ok a) : a.IsNormal := by
  have hofFields : ∀ fields, Argument.ofFields fields = .ok a → a.IsNormal := by
    intro fields hfields
    simp only [Argument.ofFields, bind_eq_ok_iff, pure_eq_ok_iff] at hfields
    obtain ⟨-, -, -, -, -, -, -, -, -, -, type, -, rfl⟩ := hfields
    exact TypeExpr.isNormal_ofValue type
  have hofItems : ∀ items, Argument.ofItems items = .ok a → a.IsNormal := by
    intro items hitems
    simp only [Argument.ofItems, bind_eq_ok_iff, pure_eq_ok_iff] at hitems
    obtain ⟨-, -, type, -, -, -, -, -, -, -, rfl⟩ := hitems
    exact TypeExpr.isNormal_ofValue type
  cases value with
  | object fields => exact hofFields fields h
  | array items => exact hofItems items h
  | _ => cases h

/-- A type that is kept as it was found is kept whole. -/
theorem eq_of_ofValue_eq_unsupported {value raw : Value}
    (h : TypeExpr.ofValue value = .unsupported raw) : raw = value := by
  have hdescriptor : ∀ (descriptor : Decoding Descriptor) (parts : List TypeExpr),
      TypeExpr.ofDescriptor value descriptor parts = .unsupported raw → raw = value := by
    intro descriptor parts hraw
    cases descriptor with
    | error e =>
        cases hraw
        rfl
    | ok d =>
        simp only [TypeExpr.ofDescriptor, Descriptor.type?] at hraw
        split at hraw <;> cases hraw
        rfl
  match value with
  | .object fields => exact hdescriptor _ _ h
  | .array [head, nullable, isUnion, inner] => exact hdescriptor _ _ h
  | .null | .bool _ | .number _ | .string _ =>
      cases h
      rfl
  | .array [] | .array [_] | .array [_, _] | .array [_, _, _] =>
      cases h
      rfl
  | .array (_ :: _ :: _ :: _ :: _ :: _) =>
      cases h
      rfl

theorem returnType_of_ne_null (special : Option Special) {value : Value} (h : value ≠ .null) :
    returnType special value = .ofValue value := by
  unfold returnType
  split
  · exact absurd rfl h
  · rfl

theorem isNormal_returnType (special : Option Special) (value : Value) :
    (returnType special value).IsNormal ∧ returnType special value ≠ .unsupported .null := by
  by_cases hnull : value = .null
  · subst hnull
    exact ⟨trivial, TypeExpr.noConfusion⟩
  · rw [returnType_of_ne_null special hnull]
    refine ⟨TypeExpr.isNormal_ofValue value, ?_⟩
    intro h
    exact hnull (eq_of_ofValue_eq_unsupported h).symm

theorem isNormal_arguments {fields : List (String × Value)} {arguments : Option (List Argument)}
    (h : field? fields "arguments" (Decoder.list Argument.ofValue) = .ok arguments) :
    ∀ a ∈ arguments.getD [], a.IsNormal :=
  forall_of_list_field_eq_ok Argument.isNormal_ofValue h

theorem Member.isNormal_ofNode {node : Value} {m : Member} (h : Member.ofNode node = .ok m) :
    m.IsNormal := by
  -- a node of a kind that is not understood is normal because it was loaded as it is
  have hloaded := h
  unfold Member.ofNode at h
  split at h
  · rename_i tag htag
    rw [inNode_eq_ok_iff] at h
    match tag with
    | .attribute =>
        obtain ⟨a, hfields, rfl⟩ := map_eq_ok_iff.mp h
        simp only [Attribute.ofFields, bind_eq_ok_iff, pure_eq_ok_iff] at hfields
        obtain ⟨-, -, -, -, -, -, -, -, -, -, type, -, rfl⟩ := hfields
        exact TypeExpr.isNormal_ofValue type
    | .operation =>
        obtain ⟨op, hfields, rfl⟩ := map_eq_ok_iff.mp h
        simp only [Operation.ofFields, bind_eq_ok_iff, pure_eq_ok_iff] at hfields
        obtain ⟨arguments, harguments, type, -, -, -, special, -, rfl⟩ := hfields
        exact ⟨isNormal_arguments harguments, isNormal_returnType _ _⟩
    | .construct =>
        obtain ⟨arguments, harguments, hm⟩ := bind_eq_ok_iff.mp h
        cases hm
        exact isNormal_arguments harguments
    | .field =>
        simp only [MemberTag.member, fieldOfFields, bind_eq_ok_iff, pure_eq_ok_iff] at h
        obtain ⟨-, -, -, -, -, -, -, -, type, -, rfl⟩ := h
        exact TypeExpr.isNormal_ofValue type
    | .constant =>
        simp only [MemberTag.member, constantOfFields, bind_eq_ok_iff, pure_eq_ok_iff] at h
        obtain ⟨-, -, -, -, -, -, type, -, rfl⟩ := h
        exact TypeExpr.isNormal_ofValue type
    | .iterable =>
        obtain ⟨c, -, rfl⟩ := map_eq_ok_iff.mp h
        revert hloaded
        unfold Collection.iterable
        split
        · exact fun _ => ⟨.inl rfl, by simp [TypeExpr.isNormal_ofValue]⟩
        · exact fun _ => ⟨.inr rfl, by simp [TypeExpr.isNormal_ofValue]⟩
        · exact id
    | .setlike =>
        obtain ⟨c, -, rfl⟩ := map_eq_ok_iff.mp h
        revert hloaded
        unfold Collection.setlike
        split
        · exact fun _ => TypeExpr.isNormal_ofValue _
        · exact id
    | .maplike =>
        obtain ⟨c, -, rfl⟩ := map_eq_ok_iff.mp h
        revert hloaded
        unfold Collection.maplike
        split
        · exact fun _ => ⟨TypeExpr.isNormal_ofValue _, TypeExpr.isNormal_ofValue _⟩
        · exact id
  · cases h
    exact hloaded

theorem isNormal_membersOf {nodes : List Value} {members : List Member}
    (h : membersOf nodes = .ok members) : ∀ m ∈ members, m.IsNormal := by
  induction nodes generalizing members with
  | nil =>
      cases h
      simp
  | cons node rest ih =>
      simp only [membersOf, bind_eq_ok_iff, pure_eq_ok_iff] at h
      obtain ⟨first, hfirst, others, hothers, rfl⟩ := h
      rintro m (_ | ⟨_, hm⟩)
      · exact Member.isNormal_ofNode hfirst
      · exact ih hothers m hm

theorem isNormal_definitionOfNode {node : Value} {d : Definition}
    (h : Definition.ofNode node = .ok d) : ∀ m ∈ d.members, m.IsNormal := by
  simp only [Definition.ofNode, bind_eq_ok_iff, pure_eq_ok_iff] at h
  obtain ⟨fields, -, members, hmembers, rfl⟩ := h
  exact isNormal_membersOf hmembers

theorem eq_ok_of_some_inNode {node : Value} {x : Decoding Root} {root : Root}
    (h : some <$> inNode node x = .ok (some root)) : x = .ok root := by
  obtain ⟨_, hx, hroot⟩ := map_eq_ok_iff.mp h
  cases hroot
  exact inNode_eq_ok_iff.mp hx

theorem Root.isNormal_ofNode {node : Value} {root : Root}
    (h : Root.ofNode? node = .ok (some root)) : root.IsNormal := by
  have hloaded := h
  unfold Root.ofNode? at h
  split at h
  · rename_i tag htag
    cases tag with
    | eof => cases h
    | definition kind =>
        obtain ⟨d, hd, hroot⟩ := map_eq_ok_iff.mp h
        cases hroot
        exact isNormal_definitionOfNode hd
    | includes =>
        have hfields := eq_ok_of_some_inNode h
        simp only [includesOfFields, bind_eq_ok_iff, pure_eq_ok_iff] at hfields
        obtain ⟨-, -, -, -, -, -, -, -, rfl⟩ := hfields
        trivial
    | enumeration =>
        have hfields := eq_ok_of_some_inNode h
        simp only [enumerationOfFields, bind_eq_ok_iff, pure_eq_ok_iff] at hfields
        obtain ⟨-, -, -, -, -, -, -, -, rfl⟩ := hfields
        trivial
    | callback =>
        have hfields := eq_ok_of_some_inNode h
        simp only [callbackOfFields, bind_eq_ok_iff, pure_eq_ok_iff] at hfields
        obtain ⟨arguments, harguments, -, -, -, -, -, -, type, -, rfl⟩ := hfields
        exact ⟨TypeExpr.isNormal_ofValue type, isNormal_arguments harguments⟩
    | typedef =>
        have hfields := eq_ok_of_some_inNode h
        simp only [typedefOfFields, bind_eq_ok_iff, pure_eq_ok_iff] at hfields
        obtain ⟨-, -, -, -, -, -, type, -, rfl⟩ := hfields
        exact TypeExpr.isNormal_ofValue type
  · cases h
    exact hloaded

/-- Whatever loads is normal. -/
theorem isNormal_rootsOf {nodes : List Value} {roots : List Root} (h : rootsOf nodes = .ok roots) :
    ∀ root ∈ roots, root.IsNormal := by
  induction nodes generalizing roots with
  | nil =>
      cases h
      simp
  | cons node rest ih =>
      simp only [rootsOf, bind_eq_ok_iff, pure_eq_ok_iff] at h
      obtain ⟨first, hfirst, others, hothers, rfl⟩ := h
      intro root hroot
      rcases List.mem_append.mp hroot with hroot | hroot
      · rw [Option.mem_toList] at hroot
        cases hroot
        exact Root.isNormal_ofNode hfirst
      · exact ih hothers root hroot

end IdlTypings.Idl
