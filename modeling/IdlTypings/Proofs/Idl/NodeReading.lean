import IdlTypings.Proofs.Idl.Acceptance

/-!
# What a node is read as

The tag of a node decides whether it is read, passed over or kept as it is; for a member that is a
collection the number of its types decides as well. Here this is said by looking at the node alone,
and reading is shown to keep to it.
-/

namespace IdlTypings.Idl

open Json (Value)

def definitionTags : List String :=
  ["interface", "interface mixin", "callback interface", "dictionary", "namespace"]

def rootTags : List String := definitionTags ++ ["includes", "enum", "callback", "typedef"]

def memberTags : List String :=
  ["attribute", "operation", "constructor", "field", "const", "iterable", "setlike", "maplike"]

def isEnd (node : Value) : Bool := tagOf node = "eof"

def isKnown (node : Value) : Bool := tagOf node ∈ rootTags

def isForeign (node : Value) : Bool := !isKnown node && !isEnd node

/-- The name that a node goes by in the document. -/
def sourceName? (node : Value) : Option String :=
  (node.field? (if tagOf node = "includes" then "target" else "name")).bind Value.asString?

/-- The items of a field that holds an array, none if it is absent. -/
def itemsUnder (key : String) (node : Value) : List Value :=
  match node.field? key with
  | some (.array items) => items
  | _ => []

/-- A member of an unknown kind, or a collection with the wrong number of types. -/
def isStray (node : Value) : Bool :=
  tagOf node ∉ memberTags ∨
    tagOf node = "iterable" ∧ (itemsUnder "idlType" node).length ∉ [1, 2] ∨
    tagOf node = "setlike" ∧ (itemsUnder "idlType" node).length ≠ 1 ∨
    tagOf node = "maplike" ∧ (itemsUnder "idlType" node).length ≠ 2

def strayMembers (node : Value) : List Value :=
  if tagOf node ∈ definitionTags then (itemsUnder "members" node).filter isStray else []

/-! ### Tags -/

theorem mem_memberTags_iff {tag : String} : tag ∈ memberTags ↔ ∃ t : MemberTag, t.text = tag := by
  have hall : memberTags = MemberTag.all.map MemberTag.text := rfl
  rw [hall, List.mem_map]
  refine ⟨fun ⟨t, _, h⟩ => ⟨t, h⟩, fun ⟨t, h⟩ => ⟨t, ?_, h⟩⟩
  cases t <;> decide

theorem mem_rootTags_iff {tag : String} :
    tag ∈ rootTags ↔ ∃ t : RootTag, t ≠ .eof ∧ t.text = tag := by
  have hall : rootTags = (RootTag.all.filter (· ≠ .eof)).map RootTag.text := rfl
  rw [hall, List.mem_map]
  constructor
  · rintro ⟨t, ht, h⟩
    exact ⟨t, of_decide_eq_true (List.mem_filter.mp ht).2, h⟩
  · rintro ⟨t, ht, h⟩
    refine ⟨t, List.mem_filter.mpr ⟨?_, decide_eq_true ht⟩, h⟩
    cases t with
    | definition kind => cases kind <;> decide
    | _ => decide

theorem mem_definitionTags_iff {tag : RootTag} :
    tag.text ∈ definitionTags ↔ ∃ kind, tag = .definition kind := by
  cases tag with
  | definition kind => cases kind <;> simp [definitionTags, RootTag.text]
  | _ => simp [definitionTags, RootTag.text]

theorem isKnown_of_isEnd {node : Value} (h : isEnd node = true) : isKnown node = false := by
  have htag : tagOf node = "eof" := of_decide_eq_true h
  simp [isKnown, htag, rootTags, definitionTags]

theorem isForeign_of_isKnown {node : Value} (h : isKnown node = true) : isForeign node = false := by
  simp [isForeign, h]

theorem isForeign_of_isEnd {node : Value} (h : isEnd node = true) : isForeign node = false := by
  simp [isForeign, h]

theorem isKnown_of_isForeign {node : Value} (h : isForeign node = true) : isKnown node = false := by
  cases hknown : isKnown node with
  | false => rfl
  | true => simp [isForeign_of_isKnown hknown] at h

/-- Each node but the marks of the end is either known or foreign. -/
theorem length_filter_isKnown_add (nodes : List Value) :
    (nodes.filter isKnown).length + (nodes.filter isForeign).length =
      (nodes.filter fun node => !isEnd node).length := by
  induction nodes with
  | nil => rfl
  | cons node rest ih =>
      simp only [List.filter_cons]
      cases hend : isEnd node with
      | true => simpa [isKnown_of_isEnd hend, isForeign_of_isEnd hend] using ih
      | false =>
          cases hknown : isKnown node <;> simp [isForeign, hend, hknown, ← ih] <;> omega

/-! ### Fields that were read -/

section Fields

variable {fields : List (String × Value)} {key : String}

theorem field?_eq_lookup (key : String) (node : Value) :
    node.field? key = (fieldsOf node).lookup key := by
  cases node <;> rfl

theorem asString?_of_field? {found : Option String}
    (h : field? fields key Decoder.string = .ok found) :
    (fields.lookup key).bind Value.asString? = found := by
  obtain ⟨hlookup, rfl⟩ | ⟨value, s, hlookup, hvalue, rfl⟩ := exists_of_field?_eq_ok h
  · rw [hlookup]
    rfl
  · rw [hlookup]
    cases value <;> cases hvalue
    rfl

theorem itemsUnder_of_field? {node : Value} {found : Option (List Value)}
    (h : field? (fieldsOf node) key Decoder.sequence = .ok found) :
    itemsUnder key node = found.getD [] := by
  rw [itemsUnder, field?_eq_lookup]
  obtain ⟨hlookup, rfl⟩ | ⟨value, items, hlookup, hitems, rfl⟩ := exists_of_field?_eq_ok h
  · rw [hlookup]
    rfl
  · rw [hlookup, sequence_eq_ok_iff.mp hitems]
    rfl

end Fields

/-! ### Members -/

/-- The number of types is wrong for a collection with this tag. -/
def MemberTag.isStrayCount (count : Nat) : MemberTag → Bool
  | .iterable => count ∉ [1, 2]
  | .setlike => count ≠ 1
  | .maplike => count ≠ 2
  | _ => false

/-- What a node may be read as: it is kept as it is exactly if it is stray. -/
inductive ReadsMember (node : Value) : Member → Prop where
  | stray : isStray node = true → ReadsMember node (.unsupported (tagOf node) node)
  | known (m : Member) :
      isStray node = false → (∀ kind raw, m ≠ .unsupported kind raw) → ReadsMember node m

section Members

variable {node : Value} {m : Member}

theorem isStray_of_tag {tag : MemberTag} (h : tagOf node = tag.text) :
    isStray node = tag.isStrayCount (itemsUnder "idlType" node).length := by
  cases tag <;> simp [isStray, h, MemberTag.text, memberTags, MemberTag.isStrayCount]

theorem itemsUnder_of_collection {c : Collection}
    (h : Collection.ofFields (fieldsOf node) = .ok c) : itemsUnder "idlType" node = c.types := by
  simp only [Collection.ofFields, bind_eq_ok_iff, pure_eq_ok_iff, require_eq_ok_iff] at h
  obtain ⟨-, -, found, hfound, -, -, types, rfl, rfl⟩ := h
  exact itemsUnder_of_field? hfound

/-- A collection that was put together from its types is kept as its node if they are too few or
too many. -/
theorem readsMember_of_collection {tag : MemberTag} (htag : tagOf node = tag.text)
    {build : Value → Collection → Member}
    (hbuild : ∀ c : Collection,
      tag.isStrayCount c.types.length = true ∧ build node c = .unsupported (tagOf node) node ∨
        tag.isStrayCount c.types.length = false ∧ ∀ kind raw, build node c ≠ .unsupported kind raw)
    (hread : build node <$> Collection.ofFields (fieldsOf node) = .ok m) : ReadsMember node m := by
  obtain ⟨c, hc, rfl⟩ := map_eq_ok_iff.mp hread
  have hstray : isStray node = tag.isStrayCount c.types.length := by
    rw [isStray_of_tag htag, itemsUnder_of_collection hc]
  obtain ⟨hcount, hkept⟩ | ⟨hcount, hread⟩ := hbuild c
  · rw [hkept]
    exact .stray (hstray.trans hcount)
  · exact .known _ (hstray.trans hcount) hread

theorem readsMember_of_tag {tag : MemberTag} (htag : tagOf node = tag.text)
    (hread : tag.member node = .ok m) : ReadsMember node m := by
  match tag with
  | .attribute | .operation =>
      obtain ⟨_, -, rfl⟩ := map_eq_ok_iff.mp hread
      exact .known _ (isStray_of_tag htag) nofun
  | .construct =>
      obtain ⟨_, -, h⟩ := bind_eq_ok_iff.mp hread
      cases h
      exact .known _ (isStray_of_tag htag) nofun
  | .field =>
      simp only [MemberTag.member, fieldOfFields, bind_eq_ok_iff, pure_eq_ok_iff] at hread
      obtain ⟨_, -, _, -, _, -, _, -, _, -, rfl⟩ := hread
      exact .known _ (isStray_of_tag htag) nofun
  | .constant =>
      simp only [MemberTag.member, constantOfFields, bind_eq_ok_iff, pure_eq_ok_iff] at hread
      obtain ⟨_, -, _, -, _, -, _, -, rfl⟩ := hread
      exact .known _ (isStray_of_tag htag) nofun
  | .iterable =>
      refine readsMember_of_collection htag (fun ⟨types, _, _⟩ => ?_) hread
      match types with
      | [] | [_] | [_, _] | _ :: _ :: _ :: _ =>
          simp [Collection.iterable, MemberTag.isStrayCount]
  | .setlike =>
      refine readsMember_of_collection htag (fun ⟨types, _, _⟩ => ?_) hread
      match types with
      | [] | [_] | _ :: _ :: _ => simp [Collection.setlike, MemberTag.isStrayCount]
  | .maplike =>
      refine readsMember_of_collection htag (fun ⟨types, _, _⟩ => ?_) hread
      match types with
      | [] | [_] | [_, _] | _ :: _ :: _ :: _ =>
          simp [Collection.maplike, MemberTag.isStrayCount]

theorem readsMember (h : Member.ofNode node = .ok m) : ReadsMember node m := by
  unfold Member.ofNode at h
  cases htag : MemberTag.ofText? (tagOf node) with
  | none =>
      rw [htag] at h
      cases h
      have hunknown : tagOf node ∉ memberTags := by
        rw [mem_memberTags_iff]
        rintro ⟨tag, htext⟩
        rw [← htext, MemberTag.ofText?_text] at htag
        cases htag
      exact .stray (by simp [isStray, hunknown])
  | some tag =>
      rw [htag] at h
      exact readsMember_of_tag (MemberTag.eq_text_of_ofText? _ _ htag) (inNode_eq_ok_iff.mp h)

end Members

/-! ### Definitions -/

/-- What a node may be read as: nothing at the end, itself if its tag is foreign, and otherwise
something that goes by the name in the document. -/
inductive ReadsRoot (node : Value) : Option Root → Prop where
  | eof : isEnd node = true → ReadsRoot node none
  | foreign : isForeign node = true → ReadsRoot node (some (.unsupported (tagOf node) node))
  | definition (kind : DefinitionKind) (d : Definition) :
      tagOf node ∈ definitionTags → sourceName? node = some d.name →
      membersOf (itemsUnder "members" node) = .ok d.members →
      ReadsRoot node (some (.definition kind d))
  | plain (root : Root) (name : String) :
      isKnown node = true → tagOf node ∉ definitionTags → sourceName? node = some name →
      root.name? = some name → (∀ kind d, root ≠ .definition kind d) →
      ReadsRoot node (some root)

section Roots

variable {node : Value}

theorem sourceName?_of_field? {key : String} {found : Option String}
    (hkey : key = if tagOf node = "includes" then "target" else "name")
    (h : field? (fieldsOf node) key Decoder.string = .ok found) : sourceName? node = found := by
  rw [sourceName?, ← hkey, field?_eq_lookup]
  exact asString?_of_field? h

theorem readsRoot_definition {kind : DefinitionKind} {d : Definition}
    (htag : tagOf node = (RootTag.definition kind).text) (hread : Definition.ofNode node = .ok d) :
    ReadsRoot node (some (.definition kind d)) := by
  have hmem : tagOf node ∈ definitionTags := by
    rw [htag]
    exact mem_definitionTags_iff.mpr ⟨kind, rfl⟩
  have hkey : "name" = if tagOf node = "includes" then "target" else "name" := by
    rw [htag]
    cases kind <;> rfl
  obtain ⟨fields, hfields, h⟩ := bind_eq_ok_iff.mp hread
  obtain ⟨members, hmembers, h⟩ := bind_eq_ok_iff.mp h
  cases h
  rw [inNode_eq_ok_iff] at hfields
  simp only [DefinitionFields.ofFields, bind_eq_ok_iff, pure_eq_ok_iff, require_eq_ok_iff]
    at hfields
  obtain ⟨_, -, _, -, nodes, hnodes, name, hname, _, rfl, rfl⟩ := hfields
  refine .definition kind _ hmem (sourceName?_of_field? hkey hname) ?_
  rw [itemsUnder_of_field? hnodes]
  exact hmembers

/-- What is read from the fields of a root that is no definition goes by the name under `key`. -/
structure NamedUnder (key : String) (fields : List (String × Value)) (root : Root) : Prop where
  name_eq : root.name? = (fields.lookup key).bind Value.asString?
  isSome_name : root.name?.isSome = true
  ne_definition : ∀ kind d, root ≠ .definition kind d

section Named

variable {fields : List (String × Value)} {root : Root}

theorem namedUnder_includes (h : includesOfFields fields = .ok root) :
    NamedUnder "target" fields root := by
  simp only [includesOfFields, bind_eq_ok_iff, pure_eq_ok_iff, require_eq_ok_iff] at h
  obtain ⟨_, -, _, htarget, target, rfl, _, rfl, rfl⟩ := h
  exact ⟨(asString?_of_field? htarget).symm, rfl, by simp⟩

theorem namedUnder_enumeration (h : enumerationOfFields fields = .ok root) :
    NamedUnder "name" fields root := by
  simp only [enumerationOfFields, bind_eq_ok_iff, pure_eq_ok_iff, require_eq_ok_iff] at h
  obtain ⟨_, hname, _, -, name, rfl, _, rfl, rfl⟩ := h
  exact ⟨(asString?_of_field? hname).symm, rfl, by simp⟩

theorem namedUnder_callback (h : callbackOfFields fields = .ok root) :
    NamedUnder "name" fields root := by
  simp only [callbackOfFields, bind_eq_ok_iff, pure_eq_ok_iff, require_eq_ok_iff] at h
  obtain ⟨_, -, _, -, _, hname, name, rfl, _, rfl, rfl⟩ := h
  exact ⟨(asString?_of_field? hname).symm, rfl, by simp⟩

theorem namedUnder_typedef (h : typedefOfFields fields = .ok root) :
    NamedUnder "name" fields root := by
  simp only [typedefOfFields, bind_eq_ok_iff, pure_eq_ok_iff, require_eq_ok_iff] at h
  obtain ⟨_, -, _, hname, name, rfl, _, rfl, rfl⟩ := h
  exact ⟨(asString?_of_field? hname).symm, rfl, by simp⟩

end Named

theorem NamedUnder.readsRoot {key : String} {root : Root} (h : NamedUnder key (fieldsOf node) root)
    (hkey : key = if tagOf node = "includes" then "target" else "name")
    (hknown : isKnown node = true) (htag : tagOf node ∉ definitionTags) :
    ReadsRoot node (some root) := by
  obtain ⟨name, hname⟩ := Option.isSome_iff_exists.mp h.isSome_name
  have hsource : sourceName? node = some name := by
    rw [sourceName?, ← hkey, field?_eq_lookup, ← h.name_eq, hname]
  exact .plain root name hknown htag hsource hname h.ne_definition

theorem readsRoot_of_tag {tag : RootTag} {root? : Option Root} (htag : tagOf node = tag.text)
    (hread : tag.root? node = .ok root?) : ReadsRoot node root? := by
  have hknown : tag ≠ .eof → isKnown node = true := fun heof =>
    decide_eq_true (mem_rootTags_iff.mpr ⟨tag, heof, htag.symm⟩)
  have hdefinition : (∀ kind, tag ≠ .definition kind) → tagOf node ∉ definitionTags := by
    intro hne
    rw [htag, mem_definitionTags_iff]
    exact fun ⟨kind, h⟩ => hne kind h
  cases tag with
  | eof =>
      cases hread
      exact .eof (decide_eq_true htag)
  | definition kind =>
      obtain ⟨d, hd, rfl⟩ := map_eq_ok_iff.mp hread
      exact readsRoot_definition htag hd
  | includes =>
      obtain ⟨root, hroot, rfl⟩ := map_eq_ok_iff.mp hread
      refine (namedUnder_includes (inNode_eq_ok_iff.mp hroot)).readsRoot ?_ (hknown (by simp))
        (hdefinition (by simp))
      rw [htag]
      rfl
  | enumeration =>
      obtain ⟨root, hroot, rfl⟩ := map_eq_ok_iff.mp hread
      refine (namedUnder_enumeration (inNode_eq_ok_iff.mp hroot)).readsRoot ?_ (hknown (by simp))
        (hdefinition (by simp))
      rw [htag]
      rfl
  | callback =>
      obtain ⟨root, hroot, rfl⟩ := map_eq_ok_iff.mp hread
      refine (namedUnder_callback (inNode_eq_ok_iff.mp hroot)).readsRoot ?_ (hknown (by simp))
        (hdefinition (by simp))
      rw [htag]
      rfl
  | typedef =>
      obtain ⟨root, hroot, rfl⟩ := map_eq_ok_iff.mp hread
      refine (namedUnder_typedef (inNode_eq_ok_iff.mp hroot)).readsRoot ?_ (hknown (by simp))
        (hdefinition (by simp))
      rw [htag]
      rfl

theorem readsRoot {root? : Option Root} (h : Root.ofNode? node = .ok root?) :
    ReadsRoot node root? := by
  unfold Root.ofNode? at h
  cases htag : RootTag.ofText? (tagOf node) with
  | none =>
      rw [htag] at h
      cases h
      have hforeign : ∀ tag : RootTag, tag.text ≠ tagOf node := by
        intro tag htext
        rw [← htext, RootTag.ofText?_text] at htag
        cases htag
      have hknown : isKnown node = false := by
        refine decide_eq_false ?_
        rw [mem_rootTags_iff]
        exact fun ⟨tag, _, htext⟩ => hforeign tag htext
      have hend : isEnd node = false := decide_eq_false (hforeign .eof).symm
      exact .foreign (by simp [isForeign, hknown, hend])
  | some tag =>
      rw [htag] at h
      exact readsRoot_of_tag (RootTag.eq_text_of_ofText? _ _ htag) h

end Roots

end IdlTypings.Idl
