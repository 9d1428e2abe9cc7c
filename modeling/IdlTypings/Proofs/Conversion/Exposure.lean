import IdlTypings.Proofs.Conversion.Merging
import IdlTypings.Proofs.Idl.FirstError
import Mathlib.Data.List.Induction

/-!
# What the window exposes

Whether the window has a variable for a definition is decided by the node of the definition: by its
last extended attribute `Exposed`, whose right-hand side has to hold the word for the window or the
one for everything. Here this is read off the node, in whichever spelling it comes, and followed
through loading, where a later attribute takes the place of an earlier one of its name.
-/

namespace IdlTypings.Idl

open Json (Value)

/-! ### Reading it off the node -/

/-- The name of an extended attribute. -/
def attrName? : Value → Option String
  | .object fields => (fields.lookup "name").bind Value.asString?
  | .array items => items[0]?.bind Value.asString?
  | _ => none

/-- The right-hand side of an extended attribute. -/
def attrSide? : Value → Option Value
  | .object fields => fields.lookup "rhs"
  | .array items => items[1]?
  | _ => none

/-- The value on a right-hand side. -/
def sideValue? : Value → Option Value
  | .object fields => fields.lookup "value"
  | .array items => items[0]?
  | _ => none

/-- The word for the window, or the one for everything. -/
def isWindowWord (word : String) : Bool := word == "Window" || word == "*"

/-- Whether a value is such a word, or a list with one among its items or their values. -/
def holdsWindowWord : Value → Bool
  | .string s => isWindowWord s
  | .array items =>
      items.any fun item =>
        item.asString?.any isWindowWord ||
          ((item.field? "value").bind Value.asString?).any isWindowWord
  | _ => false

/-- The last extended attribute `Exposed` of a node. -/
def lastExposed? (node : Value) : Option Value :=
  ((itemsUnder "extAttrs" node).filter fun entry => attrName? entry = some "Exposed").getLast?

def exposesToWindow (entry : Value) : Bool :=
  ((attrSide? entry).bind sideValue?).any holdsWindowWord

def isOnWindow (node : Value) : Bool :=
  (lastExposed? node).any exposesToWindow

/-! ### Following it through loading -/

/-- Any other value has no identifiers. -/
theorem any_identifiers (value : Value) :
    (identifiers value).any isWindowWord = holdsWindowWord value := by
  cases value with
  | string s => exact Bool.or_false _
  | array items =>
      rw [identifiers, holdsWindowWord, List.any_filterMap]
      refine List.any_congr rfl fun item => ?_
      cases item with
      | string s => exact (Bool.or_false _).symm
      | object fields =>
          dsimp only [Value.asString?]
          cases ((Value.object fields).field? "value").bind Value.asString? <;> rfl
      | _ => rfl
  | _ => rfl

theorem sideValue?_of_rightHandSide {side value : Value} (h : rightHandSide side = .ok value) :
    value = (sideValue? side).getD .null := by
  match side with
  | .object fields => exact (pure_eq_ok_iff.mp h).symm
  | .array items =>
      obtain ⟨_, -, h⟩ := bind_eq_ok_iff.mp h
      rw [← pure_eq_ok_iff.mp h, sideValue?, List.head?_eq_getElem?]

/-- The identifiers of a right-hand side, of which there are none if it is null. -/
theorem any_identifiersOf_nullable {side : Value} {value? : Option Value}
    (h : Decoder.nullable rightHandSide side = .ok value?) :
    (identifiersOf (some value?)).any isWindowWord = (sideValue? side).any holdsWindowWord := by
  cases side with
  | null =>
      cases h
      rfl
  | object | array =>
      obtain ⟨value, hvalue, rfl⟩ := map_eq_ok_iff.mp h
      refine (any_identifiers value).trans ?_
      rw [sideValue?_of_rightHandSide hvalue]
      cases sideValue? _ <;> rfl
  | _ => cases h

theorem any_identifiersOf {side : Option Value} {found : Option (Option Value)}
    (h : Decoder.optional (Decoder.nullable rightHandSide) side = .ok found) :
    (identifiersOf found).any isWindowWord = (side.bind sideValue?).any holdsWindowWord := by
  cases side with
  | none =>
      cases h
      rfl
  | some side =>
      obtain ⟨value?, hside, rfl⟩ := map_eq_ok_iff.mp h
      exact any_identifiersOf_nullable hside

theorem asString?_of_requireItem {items : List Value} {index width : Nat} {shape : Shape}
    {name : String} (h : requireItem shape width items index Decoder.string = .ok name) :
    items[index]?.bind Value.asString? = some name := by
  unfold requireItem at h
  cases hitem : items[index]? with
  | none =>
      rw [hitem] at h
      cases h
  | some value =>
      rw [hitem] at h
      cases value <;> cases h
      rfl

/-- What counts of an extended attribute that was read: its name, and whether it has one of the
words. -/
def verdict (attr : AttrEntry) : Option String × Bool := (some attr.1, attr.2.any isWindowWord)

theorem verdict_of_attrEntry {entry : Value} {attr : AttrEntry} (h : attrEntry entry = .ok attr) :
    verdict attr = (attrName? entry, exposesToWindow entry) := by
  match entry with
  | .object fields =>
      obtain ⟨found, hname, h⟩ := bind_eq_ok_iff.mp h
      obtain ⟨side, hside, h⟩ := bind_eq_ok_iff.mp h
      obtain ⟨name, hfound, h⟩ := bind_eq_ok_iff.mp h
      cases pure_eq_ok_iff.mp h
      refine Prod.ext ?_ (any_identifiersOf hside)
      exact (require_eq_ok_iff.mp hfound).symm.trans (asString?_of_field? hname).symm
  | .array items =>
      obtain ⟨name, hname, h⟩ := bind_eq_ok_iff.mp h
      obtain ⟨side, hside, h⟩ := bind_eq_ok_iff.mp h
      obtain ⟨_, -, h⟩ := bind_eq_ok_iff.mp h
      cases pure_eq_ok_iff.mp h
      exact Prod.ext (asString?_of_requireItem hname).symm (any_identifiersOf hside)

theorem verdicts_of_all {nodes : List Value} {attrs : List AttrEntry}
    (h : Decoder.all attrEntry nodes = .ok attrs) :
    attrs.map verdict = nodes.map fun entry => (attrName? entry, exposesToWindow entry) := by
  induction nodes generalizing attrs with
  | nil =>
      cases h
      rfl
  | cons node rest ih =>
      obtain ⟨attr, hattr, h⟩ := bind_eq_ok_iff.mp h
      obtain ⟨others, hothers, h⟩ := bind_eq_ok_iff.mp h
      cases pure_eq_ok_iff.mp h
      rw [List.map_cons, List.map_cons, verdict_of_attrEntry hattr, ih hothers]

/-! ### The last attribute of a name -/

theorem get?_ofList_append (attrs : List AttrEntry) (attr : AttrEntry) (name : String) :
    (ExtAttrs.ofList (attrs ++ [attr])).get? name =
      if name = attr.1 then some attr.2 else (ExtAttrs.ofList attrs).get? name := by
  rw [ExtAttrs.ofList, List.foldl_append]
  exact ExtAttrs.get?_insert _ _ _ _

/-- Of several attributes of one name the last one counts. -/
theorem get?_ofList (attrs : List AttrEntry) (name : String) :
    (ExtAttrs.ofList attrs).get? name =
      (attrs.filter fun attr => attr.1 = name).getLast?.map Prod.snd := by
  induction attrs using List.reverseRecOn with
  | nil => rfl
  | append_singleton attrs attr ih =>
      rw [get?_ofList_append, List.filter_append, ih]
      by_cases hname : name = attr.1
      · simp [hname]
      · simp [hname, Ne.symm hname]

/-- Whether the last verdict on `Exposed` is a good one. -/
def lastVerdict (verdicts : List (Option String × Bool)) : Bool :=
  (verdicts.filter fun verdict => verdict.1 = some "Exposed").getLast?.any Prod.snd

theorem lastVerdict_map {α : Type} (name? : α → Option String) (good : α → Bool) (items : List α) :
    lastVerdict (items.map fun item => (name? item, good item)) =
      (items.filter fun item => name? item = some "Exposed").getLast?.any good := by
  rw [lastVerdict, List.filter_map, List.getLast?_map, Option.any_map]
  rfl

theorem isExposedOn_ofList (attrs : List AttrEntry) :
    (ExtAttrs.ofList attrs).isExposedOn "Window" = lastVerdict (attrs.map verdict) := by
  unfold verdict
  rw [lastVerdict_map, ExtAttrs.isExposedOn, get?_ofList]
  simp only [Option.some_inj]
  cases (attrs.filter fun attr => attr.1 = "Exposed").getLast? <;> rfl

theorem isExposedOn_of_all {node : Value} {attrs : List AttrEntry}
    (h : Decoder.all attrEntry (itemsUnder "extAttrs" node) = .ok attrs) :
    (ExtAttrs.ofList attrs).isExposedOn "Window" = isOnWindow node := by
  rw [isExposedOn_ofList, verdicts_of_all h, lastVerdict_map]
  rfl

/-! ### Definitions -/

theorem all_itemsUnder_of_field? {α : Type} {node : Value} {key : String} {item : Decoder α}
    {found : Option (List α)} (h : field? (fieldsOf node) key (Decoder.list item) = .ok found) :
    Decoder.all item (itemsUnder key node) = .ok (found.getD []) := by
  rw [itemsUnder, field?_eq_lookup]
  obtain ⟨hlookup, rfl⟩ | ⟨value, items, hlookup, hitems, rfl⟩ := exists_of_field?_eq_ok h
  · rw [hlookup]
    rfl
  · obtain ⟨values, hvalues, hall⟩ := bind_eq_ok_iff.mp hitems
    rw [hlookup, sequence_eq_ok_iff.mp hvalues]
    exact hall

theorem isExposedOn_of_ofNode {node : Value} {d : Definition} (h : Definition.ofNode node = .ok d) :
    d.extAttrs.isExposedOn "Window" = isOnWindow node := by
  obtain ⟨fields, hfields, h⟩ := bind_eq_ok_iff.mp h
  obtain ⟨members, -, h⟩ := bind_eq_ok_iff.mp h
  cases pure_eq_ok_iff.mp h
  rw [inNode_eq_ok_iff] at hfields
  simp only [DefinitionFields.ofFields, bind_eq_ok_iff, pure_eq_ok_iff] at hfields
  obtain ⟨attrs, hattrs, _, -, _, -, _, -, _, -, rfl⟩ := hfields
  exact isExposedOn_of_all (all_itemsUnder_of_field? hattrs)

/-- A document with one definition is read as this definition. -/
theorem exists_definition_of_load {node : Value} {roots : List Root}
    (htag : tagOf node ∈ definitionTags) (hload : load (.array [node]) = .ok roots) :
    ∃ kind d, roots = [.definition kind d] ∧ sourceName? node = some d.name ∧
      d.extAttrs.isExposedOn "Window" = isOnWindow node := by
  obtain ⟨kind, hkind⟩ := exists_kind_of_mem_definitionTags htag
  rw [load, rootsOf_singleton, Root.ofNode?_of_tag hkind] at hload
  obtain ⟨root?, hroot, rfl⟩ := map_eq_ok_iff.mp hload
  obtain ⟨d, hd, rfl⟩ := map_eq_ok_iff.mp hroot
  refine ⟨kind, d, rfl, ?_, isExposedOn_of_ofNode hd⟩
  cases readsRoot_definition hkind hd with
  | definition _ _ _ hname _ => exact hname
  | plain _ _ _ _ _ _ hother => exact absurd rfl (hother kind d)

end IdlTypings.Idl

namespace IdlTypings.Conversion

open Json (Value)
open Idl (tagOf definitionTags sourceName? isOnWindow)

/-- **Window globals.** A definition that is loaded and converted gives its main declaration and,
directly behind it, one variable of its name and type exactly if its node is on the window: if the
last attribute `Exposed` holds the word for the window or for everything. -/
theorem items_convert_of_load {mode : Mode} {node : Value} {roots : List Idl.Root}
    (htag : tagOf node ∈ definitionTags) (hload : Idl.load (.array [node]) = .ok roots) :
    ∃ name main, sourceName? node = some name ∧ main.name = name ∧ main.kind ≠ .variableKind ∧
      (convert mode roots).items =
        [⟨name,
          main :: if isOnWindow node then [.variableDecl name (.name name) false] else []⟩] := by
  obtain ⟨kind, d, rfl, hname, hexposed⟩ := Idl.exists_definition_of_load htag hload
  let main := shape mode d.name (allBases mode d) (d.members.flatMap (contribution mode d))
  refine ⟨d.name, main, hname, name_shape mode d.name _ _, ?_, ?_⟩
  · rw [kind_definition]
    exact bodyKind_ne_variableKind mode d
  · have hglobals : windowGlobals d =
        if isOnWindow node then [.variableDecl d.name (.name d.name) false] else [] := by
      rw [windowGlobals, hexposed]
    rw [← hglobals, ← result_definitionDeclarations]
    rfl

/-- A namespace whose last attribute `Exposed` is `last`, behind one for everything and before
attributes of other names. -/
def gadgetNode (last : Value) : Value :=
  .object
    [("extAttrs", .array
        [.object [("name", .string "Exposed"), ("rhs", .object [("value", .string "*")])], last,
          .array [.string "SecureContext"],
          .object [("name", .string "Global"), ("rhs", .object [("value", .string "Window")])]]),
      ("name", .string "Gadget"), ("type", .string "namespace")]

/-- `[Exposed=(Worker,Window)]` as a list of its fields, with an item that is no identifier. -/
def windowAttr : Value :=
  .array
    [.string "Exposed",
      .array [.array [.string "Worker", .null, .object [("value", .string "Window")]]]]

/-- `[Exposed=Worker]` as an object. -/
def workerAttr : Value :=
  .object [("name", .string "Exposed"), ("rhs", .object [("value", .string "Worker")])]

theorem items_convert_gadgetNode :
    (∃ roots main, tagOf (gadgetNode windowAttr) ∈ definitionTags ∧
        Idl.load (.array [gadgetNode windowAttr]) = .ok roots ∧
        (convert .runtime roots).items =
          [⟨"Gadget", [main, .variableDecl "Gadget" (.name "Gadget") false]⟩]) ∧
      ∃ roots main, tagOf (gadgetNode workerAttr) ∈ definitionTags ∧
        Idl.load (.array [gadgetNode workerAttr]) = .ok roots ∧
        (convert .ambient roots).items = [⟨"Gadget", [main]⟩] := by
  constructor
  · have htag : tagOf (gadgetNode windowAttr) ∈ definitionTags := by decide
    have hload : ∃ roots, Idl.load (.array [gadgetNode windowAttr]) = .ok roots := ⟨_, rfl⟩
    obtain ⟨roots, hload⟩ := hload
    obtain ⟨name, main, hname, -, -, hitems⟩ := items_convert_of_load htag hload
    cases hname
    exact ⟨roots, main, htag, hload, hitems⟩
  · have htag : tagOf (gadgetNode workerAttr) ∈ definitionTags := by decide
    have hload : ∃ roots, Idl.load (.array [gadgetNode workerAttr]) = .ok roots := ⟨_, rfl⟩
    obtain ⟨roots, hload⟩ := hload
    obtain ⟨name, main, hname, -, -, hitems⟩ := items_convert_of_load htag hload
    cases hname
    exact ⟨roots, main, htag, hload, hitems⟩

end IdlTypings.Conversion
