import IdlTypings.Proofs.Idl.Acceptance
import IdlTypings.Proofs.Idl.Equality
import IdlTypings.Proofs.Idl.NormalForm
import IdlTypings.Proofs.Json.Depth

/-!
# How deep loaded types are

Each node of a type but a leaf takes two containers of the value that describes it: the descriptor,
be it an object or an array, and the array of the types in it. Loading finds every type inside a
root, so at least two containers are around the value of any type. With the depth that a text may
have, this bounds the depth of all types that are loaded from it.
-/

namespace IdlTypings.Idl

open Json (Value itemsDepth fieldsDepth)

/-! ### Types of values -/

mutual

/-- How many nodes there are on the longest path from the root of a type to a leaf. -/
def TypeExpr.depth : TypeExpr → Nat
  | .named _ _ => 1
  | .generic _ args _ => typesDepth args + 1
  | .union members _ => typesDepth members + 1
  | .unsupported _ => 1
termination_by structural type => type

def typesDepth : List TypeExpr → Nat
  | [] => 0
  | type :: rest => max type.depth (typesDepth rest)
termination_by structural types => types

end

theorem typesDepth_le_iff {types : List TypeExpr} {n : Nat} :
    typesDepth types ≤ n ↔ ∀ type ∈ types, type.depth ≤ n := by
  induction types with
  | nil => simp [typesDepth]
  | cons type rest ih => rw [typesDepth, Nat.max_le, ih, List.forall_mem_cons]

theorem depth_le_typesDepth {type : TypeExpr} {types : List TypeExpr} (h : type ∈ types) :
    type.depth ≤ typesDepth types :=
  typesDepth_le_iff.mp (Nat.le_refl _) type h

theorem TypeExpr.depth_pos (type : TypeExpr) : 0 < type.depth := by
  cases type <;> exact Nat.succ_pos _

theorem depth_ofDescriptor_le (raw : Value) (descriptor : Decoding Descriptor)
    (parts : List TypeExpr) :
    (TypeExpr.ofDescriptor raw descriptor parts).depth ≤ typesDepth parts + 1 := by
  have hleaf : 1 ≤ typesDepth parts + 1 := Nat.le_add_left 1 _
  cases descriptor with
  | error e => exact hleaf
  | ok d =>
      rw [TypeExpr.ofDescriptor, Descriptor.type?]
      split
      · exact Nat.le_refl _
      · exact Nat.le_refl _
      · exact hleaf
      · exact hleaf

mutual

-- By induction on the value, with two containers for each node on the way down.

theorem TypeExpr.depth_ofValue_le (value : Value) :
    2 * (TypeExpr.ofValue value).depth ≤ value.depth + 2 := by
  have hleaf : 2 * 1 ≤ value.depth + 2 := Nat.le_add_left 2 _
  match value with
  | .object fields =>
      have hparts := typesDepth_typesInFields_le fields
      have hnode := depth_ofDescriptor_le (.object fields) (Descriptor.ofFields fields)
        (typesInFields fields)
      rw [TypeExpr.ofValue, Value.depth]
      omega
  | .array [head, nullable, isUnion, inner] =>
      have hparts := typesDepth_typesIn_le inner
      have hinner : inner.depth ≤ itemsDepth [head, nullable, isUnion, inner] :=
        Json.itemsDepth_le_iff.mp (Nat.le_refl _) inner (by simp)
      have hnode := depth_ofDescriptor_le (.array [head, nullable, isUnion, inner])
        (Descriptor.ofItems head nullable isUnion inner) (typesIn inner)
      rw [TypeExpr.ofValue, Value.depth]
      omega
  | .null | .bool _ | .number _ | .string _ => exact hleaf
  | .array [] | .array [_] | .array [_, _] | .array [_, _, _] => exact hleaf
  | .array (_ :: _ :: _ :: _ :: _ :: _) => exact hleaf
termination_by structural value

theorem typesDepth_typesInFields_le (fields : List (String × Value)) :
    2 * typesDepth (typesInFields fields) ≤ fieldsDepth fields + 1 := by
  match fields with
  | [] => exact Nat.zero_le _
  | (key, value) :: rest =>
      have hvalue := typesDepth_typesIn_le value
      have hrest := typesDepth_typesInFields_le rest
      rw [typesInFields, fieldsDepth]
      split <;> omega
termination_by structural fields

theorem typesDepth_typesIn_le (value : Value) :
    2 * typesDepth (typesIn value) ≤ value.depth + 1 := by
  match value with
  | .array items => exact typesDepth_typesOfItems_le items
  | .null | .bool _ | .number _ | .string _ | .object _ => exact Nat.zero_le _
termination_by structural value

theorem typesDepth_typesOfItems_le (items : List Value) :
    2 * typesDepth (typesOfItems items) ≤ itemsDepth items + 2 := by
  match items with
  | [] => exact Nat.zero_le _
  | item :: rest =>
      have hitem := TypeExpr.depth_ofValue_le item
      have hrest := typesDepth_typesOfItems_le rest
      rw [typesOfItems, typesDepth, itemsDepth]
      omega
termination_by structural items

end

/-! ### Where types come from -/

/-- How a type comes out of a value that was loaded: it was read from a part of the value that has
at least so many containers around it, or it is implied, as what an operation without a type
returns. -/
inductive LoadedFrom (outer : Value) (least : Nat) : TypeExpr → Prop where
  | described {n : Nat} {value : Value} (hleast : least ≤ n) (h : outer.Holds n value) :
      LoadedFrom outer least (.ofValue value)
  | implied (special : Option Special) : LoadedFrom outer least (returnType special .null)

theorem LoadedFrom.depth_le {outer : Value} {least : Nat} {type : TypeExpr}
    (h : LoadedFrom outer least type) (limit : Nat) (houter : outer.depth ≤ limit + least) :
    type.depth ≤ limit / 2 + 1 := by
  cases h with
  | @described n value hleast h =>
      have hvalue := h.depth_add_le
      have htype := TypeExpr.depth_ofValue_le value
      omega
  | implied special => exact Nat.le_add_left 1 _

/-- A part of a part has the containers around both. -/
theorem LoadedFrom.inside {outer inner : Value} {n least : Nat} {type : TypeExpr}
    (h : LoadedFrom inner least type) (hinner : outer.Holds n inner) :
    LoadedFrom outer (n + least) type := by
  cases h with
  | described hleast h => exact .described (Nat.add_le_add_left hleast n) (hinner.trans h)
  | implied special => exact .implied special

theorem LoadedFrom.mono {outer : Value} {least more : Nat} {type : TypeExpr} (hle : least ≤ more)
    (h : LoadedFrom outer more type) : LoadedFrom outer least type := by
  cases h with
  | described hleast h => exact .described (Nat.le_trans hle hleast) h
  | implied special => exact .implied special

/-- What was read from items one after the other was read from one of them. -/
theorem exists_of_mem_read {ε α β γ : Type} {item : α → Except ε β}
    {read : List α → Except ε (List γ)} {xs : List α} {cs : List γ} (part : β → List γ)
    (h : read xs = .ok cs) (hnil : read [] = .ok [])
    (hcons : ∀ x xs, read (x :: xs) = do
      let b ← item x
      let cs ← read xs
      return part b ++ cs)
    {c : γ} (hc : c ∈ cs) : ∃ x ∈ xs, ∃ b, item x = .ok b ∧ c ∈ part b := by
  induction xs generalizing cs with
  | nil =>
      rw [hnil] at h
      cases h
      cases hc
  | cons x rest ih =>
      simp only [hcons, bind_eq_ok_iff, pure_eq_ok_iff] at h
      obtain ⟨first, hfirst, others, hothers, rfl⟩ := h
      obtain hc | hc := List.mem_append.mp hc
      · exact ⟨x, .head _, first, hfirst, hc⟩
      · obtain ⟨y, hy, b, hb, hpart⟩ := ih hothers hc
        exact ⟨y, .tail _ hy, b, hb, hpart⟩

/-! ### Fields of a node -/

section Fields

variable {α : Type} {node : Value} {key : String} {item : Decoder α}

theorem holds_item {items : List Value} {value : Value} (h : value ∈ items) :
    (Value.array items).Holds 1 value :=
  .item h (.self value)

theorem holds_of_lookup {value : Value} (h : (fieldsOf node).lookup key = some value) :
    node.Holds 1 value := by
  cases node with
  | object fields =>
      obtain ⟨before, after, hfields, -⟩ := List.lookup_eq_some_iff.mp h
      have hfield : (key, value) ∈ fields := by
        change (key, value) ∈ fieldsOf (.object fields)
        rw [hfields]
        exact List.mem_append_right before (.head _)
      exact .field hfield (.self value)
  | _ => cases h

theorem holds_of_field? {a : α} (h : field? (fieldsOf node) key item = .ok (some a)) :
    ∃ value, node.Holds 1 value ∧ item value = .ok a := by
  obtain ⟨-, hfound⟩ | ⟨value, found, hlookup, hvalue, hfound⟩ := exists_of_field?_eq_ok h
  · cases hfound
  · cases hfound
    exact ⟨value, holds_of_lookup hlookup, hvalue⟩

/-- The type of a field that has to be there. -/
theorem loadedFrom_field {found : Option Value} {value : Value}
    (h : field? (fieldsOf node) key Decoder.any = .ok found)
    (hfound : require key found = .ok value) : LoadedFrom node 1 (.ofValue value) := by
  rw [require_eq_ok_iff.mp hfound] at h
  obtain ⟨described, hdescribed, hvalue⟩ := holds_of_field? h
  cases hvalue
  exact .described (Nat.le_refl 1) hdescribed

theorem holds_of_sequence_field {found : Option (List Value)}
    (h : field? (fieldsOf node) key Decoder.sequence = .ok found) :
    ∀ value ∈ found.getD [], node.Holds 2 value := by
  intro value hvalue
  cases found with
  | none => cases hvalue
  | some values =>
      obtain ⟨list, hlist, hvalues⟩ := holds_of_field? h
      rw [sequence_eq_ok_iff.mp hvalues] at hlist
      exact hlist.trans (holds_item hvalue)

/-- What was read from the items of a field. -/
theorem holds_of_list_field {found : Option (List α)}
    (h : field? (fieldsOf node) key (Decoder.list item) = .ok found) {a : α}
    (ha : a ∈ found.getD []) : ∃ value, node.Holds 2 value ∧ item value = .ok a := by
  cases found with
  | none => cases ha
  | some as =>
      obtain ⟨list, hlist, hitems⟩ := holds_of_field? h
      obtain ⟨values, hvalues, hall⟩ := bind_eq_ok_iff.mp hitems
      rw [sequence_eq_ok_iff.mp hvalues] at hlist
      obtain ⟨value, hvalue, found, hread, ha⟩ :=
        exists_of_mem_read (fun a => [a]) hall rfl (fun _ _ => rfl) ha
      cases List.mem_singleton.mp ha
      exact ⟨value, hlist.trans (holds_item hvalue), hread⟩

theorem mem_of_requireItem {shape : Shape} {width index : Nat} {items : List Value} {value : Value}
    (h : requireItem shape width items index Decoder.any = .ok value) : value ∈ items := by
  unfold requireItem at h
  split at h
  · rename_i found hfound
    cases h
    exact List.mem_of_getElem? hfound
  · cases h

theorem loadedFrom_argument {value : Value} {a : Argument} (h : Argument.ofValue value = .ok a) :
    LoadedFrom value 1 a.type := by
  cases value with
  | object fields =>
      simp only [Argument.ofValue, Argument.ofFields, bind_eq_ok_iff, pure_eq_ok_iff] at h
      obtain ⟨found, hfound, -, -, -, -, -, -, -, -, type, htype, rfl⟩ := h
      exact loadedFrom_field hfound htype
  | array items =>
      simp only [Argument.ofValue, Argument.ofItems, bind_eq_ok_iff, pure_eq_ok_iff] at h
      obtain ⟨-, -, type, htype, -, -, -, -, -, -, rfl⟩ := h
      exact .described (Nat.le_refl 1) (holds_item (mem_of_requireItem htype))
  | _ => cases h

theorem loadedFrom_arguments {found : Option (List Argument)}
    (h : field? (fieldsOf node) key (Decoder.list Argument.ofValue) = .ok found) :
    ∀ type ∈ (found.getD []).map Argument.type, LoadedFrom node 1 type := by
  intro type htype
  obtain ⟨a, ha, rfl⟩ := List.mem_map.mp htype
  obtain ⟨value, hvalue, hread⟩ := holds_of_list_field h ha
  exact ((loadedFrom_argument hread).inside hvalue).mono (by decide)

theorem loadedFrom_returns {found : Option Value}
    (h : field? (fieldsOf node) key Decoder.any = .ok found) (special : Option Special) :
    LoadedFrom node 1 (returnType special (found.getD .null)) := by
  cases found with
  | none => exact .implied special
  | some value =>
      obtain ⟨described, hdescribed, hvalue⟩ := holds_of_field? h
      cases hvalue
      by_cases hnull : value = .null
      · rw [hnull]
        exact .implied special
      · rw [Option.getD_some, returnType_of_ne_null special hnull]
        exact .described (Nat.le_refl 1) hdescribed

end Fields

/-! ### Members -/

section Members

variable {node : Value}

theorem holds_of_collection {c : Collection} (h : Collection.ofFields (fieldsOf node) = .ok c) :
    ∀ value ∈ c.types, node.Holds 2 value := by
  simp only [Collection.ofFields, bind_eq_ok_iff, pure_eq_ok_iff, require_eq_ok_iff] at h
  obtain ⟨-, -, found, hfound, -, -, types, rfl, rfl⟩ := h
  exact holds_of_sequence_field hfound

/-- A collection has the types of its values, or none if it is kept as it was found. -/
theorem loadedFrom_collection {build : Value → Collection → Member} {m : Member}
    (hbuild : ∀ c : Collection, (build node c).types ⊆ c.types.map TypeExpr.ofValue)
    (h : build node <$> Collection.ofFields (fieldsOf node) = .ok m) :
    ∀ type ∈ m.types, LoadedFrom node 1 type := by
  obtain ⟨c, hc, rfl⟩ := map_eq_ok_iff.mp h
  intro type htype
  obtain ⟨value, hvalue, rfl⟩ := List.mem_map.mp (hbuild c htype)
  exact .described (by decide) (holds_of_collection hc value hvalue)

theorem loadedFrom_of_tag {tag : MemberTag} {m : Member} (h : tag.member node = .ok m) :
    ∀ type ∈ m.types, LoadedFrom node 1 type := by
  match tag with
  | .attribute =>
      obtain ⟨a, ha, rfl⟩ := map_eq_ok_iff.mp h
      simp only [Attribute.ofFields, bind_eq_ok_iff, pure_eq_ok_iff] at ha
      obtain ⟨found, hfound, -, -, -, -, -, -, -, -, type, htype, rfl⟩ := ha
      exact List.forall_mem_singleton.mpr (loadedFrom_field hfound htype)
  | .operation =>
      obtain ⟨op, hop, rfl⟩ := map_eq_ok_iff.mp h
      simp only [Operation.ofFields, bind_eq_ok_iff, pure_eq_ok_iff] at hop
      obtain ⟨arguments, harguments, found, hfound, -, -, special, -, rfl⟩ := hop
      exact List.forall_mem_append.mpr ⟨loadedFrom_arguments harguments,
        List.forall_mem_singleton.mpr (loadedFrom_returns hfound _)⟩
  | .construct =>
      obtain ⟨arguments, harguments, hm⟩ := bind_eq_ok_iff.mp h
      cases hm
      exact loadedFrom_arguments harguments
  | .field =>
      simp only [MemberTag.member, fieldOfFields, bind_eq_ok_iff, pure_eq_ok_iff] at h
      obtain ⟨found, hfound, -, -, -, -, -, -, type, htype, rfl⟩ := h
      exact List.forall_mem_singleton.mpr (loadedFrom_field hfound htype)
  | .constant =>
      simp only [MemberTag.member, constantOfFields, bind_eq_ok_iff, pure_eq_ok_iff] at h
      obtain ⟨found, hfound, -, -, -, -, type, htype, rfl⟩ := h
      exact List.forall_mem_singleton.mpr (loadedFrom_field hfound htype)
  | .iterable =>
      refine loadedFrom_collection (fun c => ?_) h
      unfold Collection.iterable
      split <;> simp_all [Member.types]
  | .setlike =>
      refine loadedFrom_collection (fun c => ?_) h
      unfold Collection.setlike
      split <;> simp_all [Member.types]
  | .maplike =>
      refine loadedFrom_collection (fun c => ?_) h
      unfold Collection.maplike
      split <;> simp_all [Member.types]

theorem loadedFrom_member {m : Member} (h : Member.ofNode node = .ok m) :
    ∀ type ∈ m.types, LoadedFrom node 1 type := by
  unfold Member.ofNode at h
  split at h
  · exact loadedFrom_of_tag (inNode_eq_ok_iff.mp h)
  · cases h
    exact List.forall_mem_nil _

theorem exists_of_mem_members {nodes : List Value} {members : List Member}
    (h : membersOf nodes = .ok members) {m : Member} (hm : m ∈ members) :
    ∃ node ∈ nodes, Member.ofNode node = .ok m := by
  obtain ⟨node, hnode, first, hfirst, hm⟩ :=
    exists_of_mem_read (fun m => [m]) h rfl (fun _ _ => rfl) hm
  cases List.mem_singleton.mp hm
  exact ⟨node, hnode, hfirst⟩

end Members

/-! ### Roots -/

/-- All types in a root. -/
def Root.types : Root → List TypeExpr
  | .definition _ d => d.members.flatMap Member.types
  | .includes _ _ => []
  | .enumeration _ _ => []
  | .callback _ returns arguments => arguments.map Argument.type ++ [returns]
  | .typedef _ type => [type]
  | .unsupported _ _ => []

section Roots

variable {node : Value}

theorem loadedFrom_definition {d : Definition} (h : Definition.ofNode node = .ok d) :
    ∀ type ∈ d.members.flatMap Member.types, LoadedFrom node 1 type := by
  simp only [Definition.ofNode, bind_eq_ok_iff, pure_eq_ok_iff, inNode_eq_ok_iff] at h
  obtain ⟨fields, hfields, members, hmembers, rfl⟩ := h
  simp only [DefinitionFields.ofFields, bind_eq_ok_iff, pure_eq_ok_iff] at hfields
  obtain ⟨_, -, _, -, nodes, hnodes, _, -, _, -, rfl⟩ := hfields
  intro type htype
  obtain ⟨m, hm, htype⟩ := List.mem_flatMap.mp htype
  obtain ⟨member, hmember, hread⟩ := exists_of_mem_members hmembers hm
  have hheld : node.Holds 2 member := holds_of_sequence_field hnodes member hmember
  exact ((loadedFrom_member hread type htype).inside hheld).mono (by decide)

theorem loadedFrom_root {root : Root} (h : Root.ofNode? node = .ok (some root)) :
    ∀ type ∈ root.types, LoadedFrom node 1 type := by
  unfold Root.ofNode? at h
  split at h
  · rename_i tag htag
    cases tag with
    | eof => cases h
    | definition kind =>
        obtain ⟨d, hd, hroot⟩ := map_eq_ok_iff.mp h
        cases hroot
        exact loadedFrom_definition hd
    | includes =>
        have hfields := eq_ok_of_some_inNode h
        simp only [includesOfFields, bind_eq_ok_iff, pure_eq_ok_iff] at hfields
        obtain ⟨-, -, -, -, -, -, -, -, rfl⟩ := hfields
        exact List.forall_mem_nil _
    | enumeration =>
        have hfields := eq_ok_of_some_inNode h
        simp only [enumerationOfFields, bind_eq_ok_iff, pure_eq_ok_iff] at hfields
        obtain ⟨-, -, -, -, -, -, -, -, rfl⟩ := hfields
        exact List.forall_mem_nil _
    | callback =>
        have hfields := eq_ok_of_some_inNode h
        simp only [callbackOfFields, bind_eq_ok_iff, pure_eq_ok_iff] at hfields
        obtain ⟨arguments, harguments, found, hfound, -, -, -, -, type, htype, rfl⟩ := hfields
        exact List.forall_mem_append.mpr ⟨loadedFrom_arguments harguments,
          List.forall_mem_singleton.mpr (loadedFrom_field hfound htype)⟩
    | typedef =>
        have hfields := eq_ok_of_some_inNode h
        simp only [typedefOfFields, bind_eq_ok_iff, pure_eq_ok_iff] at hfields
        obtain ⟨found, hfound, -, -, -, -, type, htype, rfl⟩ := hfields
        exact List.forall_mem_singleton.mpr (loadedFrom_field hfound htype)
  · cases h
    exact List.forall_mem_nil _

theorem exists_of_mem_roots {nodes : List Value} {roots : List Root}
    (h : rootsOf nodes = .ok roots) {root : Root} (hroot : root ∈ roots) :
    ∃ node ∈ nodes, Root.ofNode? node = .ok (some root) := by
  obtain ⟨node, hnode, root?, hread, hroot⟩ :=
    exists_of_mem_read Option.toList h rfl (fun _ _ => rfl) hroot
  rw [Option.mem_toList] at hroot
  cases hroot
  exact ⟨node, hnode, hread⟩

/-- Every type of a document has two containers around it, the list of nodes and its node. -/
theorem loadedFrom_load {document : Value} {roots : List Root} (h : load document = .ok roots)
    {root : Root} (hroot : root ∈ roots) : ∀ type ∈ root.types, LoadedFrom document 2 type := by
  intro type htype
  cases document with
  | array nodes =>
      obtain ⟨node, hnode, hread⟩ := exists_of_mem_roots h hroot
      exact (loadedFrom_root hread type htype).inside (holds_item hnode)
  | _ => cases h

end Roots

end IdlTypings.Idl
