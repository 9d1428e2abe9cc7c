import IdlTypings.Proofs.Conversion.Independence
import IdlTypings.Proofs.Conversion.Skipped
import IdlTypings.Proofs.Idl.NodeReading
import Mathlib.Data.List.Basic

/-!
# From a document to its declarations

Loading keeps some nodes as they are, and conversion reports what was kept. Between the two nothing
is lost: every node but the marks of the end gives an item or a diagnostic, and a member is reported
exactly if its node could not be read as one of a known kind.
-/

namespace IdlTypings.Conversion

open Json (Value)
open Idl (tagOf isEnd isKnown isForeign isForeign_of_isKnown isStray sourceName? strayMembers
  itemsUnder definitionTags)

def reported (construct : Construct) (c : Converted) : List Diagnostic :=
  c.diagnostics.filter (·.construct = construct)

def foreignReport (node : Value) : Diagnostic := ⟨.definition, none, node.dump⟩

def strayReports (node : Value) : List Diagnostic :=
  (strayMembers node).map fun member => ⟨.member, sourceName? node, member.dump⟩

/-- Every node of a document has left its trace. -/
structure AccountsFor (nodes : List Value) (c : Converted) : Prop where
  sources : c.items.map (fun item => some item.source) = (nodes.filter isKnown).map sourceName?
  definitions : reported .definition c = (nodes.filter isForeign).map foreignReport
  members : reported .member c = nodes.flatMap strayReports

theorem AccountsFor.append {xs ys : List Value} {a b : Converted} (ha : AccountsFor xs a)
    (hb : AccountsFor ys b) : AccountsFor (xs ++ ys) (a ++ b) where
  sources := by
    rw [Converted.items_append, List.map_append, ha.sources, hb.sources, List.filter_append,
      List.map_append]
  definitions := by
    rw [List.filter_append, List.map_append, ← ha.definitions, ← hb.definitions]
    exact List.filter_append _ _
  members := by
    rw [List.flatMap_append, ← ha.members, ← hb.members]
    exact List.filter_append _ _

/-! ### One node -/

section Reports

variable (d : Idl.Definition) {construct : Construct}

theorem filter_skippedTypes (h : construct ≠ .type) (owner : String) (types : List Idl.TypeExpr) :
    (skippedTypes owner types).filter (·.construct = construct) = [] := by
  refine List.filter_eq_nil_iff.mpr fun diagnostic hmem hconstruct => ?_
  obtain ⟨raw, -, rfl⟩ := List.mem_map.mp hmem
  exact h (of_decide_eq_true hconstruct).symm

theorem filter_skippedInMember_of_known {m : Idl.Member} (h : construct ≠ .type)
    (hm : ∀ kind raw, m ≠ .unsupported kind raw) :
    (skippedInMember d m).filter (·.construct = construct) = [] := by
  cases m with
  | unsupported kind raw => exact absurd rfl (hm kind raw)
  | _ => exact filter_skippedTypes h _ _

theorem filter_skippedInMember {node : Value} {m : Idl.Member}
    (h : Idl.Member.ofNode node = .ok m) :
    (skippedInMember d m).filter (·.construct = .member) =
      if isStray node then [⟨.member, some d.name, node.dump⟩] else [] := by
  cases Idl.readsMember h with
  | stray hstray =>
      rw [if_pos hstray]
      rfl
  | known _ hstray hm =>
      rw [hstray]
      exact filter_skippedInMember_of_known d nofun hm

/-- The members of a definition are reported one by one. -/
theorem filter_skipped_of_membersOf {nodes : List Value} {members : List Idl.Member}
    (h : Idl.membersOf nodes = .ok members) :
    (members.flatMap (skippedInMember d)).filter (·.construct = .member) =
      (nodes.filter isStray).map fun node => ⟨.member, some d.name, node.dump⟩ := by
  induction nodes generalizing members with
  | nil =>
      cases h
      rfl
  | cons node rest ih =>
      obtain ⟨m, hm, h⟩ := Idl.bind_eq_ok_iff.mp h
      obtain ⟨others, hothers, h⟩ := Idl.bind_eq_ok_iff.mp h
      cases h
      rw [List.flatMap_cons, List.filter_append, ih hothers, filter_skippedInMember d hm,
        List.filter_cons]
      cases isStray node <;> rfl

theorem filter_definition_skippedInMember (m : Idl.Member) :
    (skippedInMember d m).filter (·.construct = .definition) = [] := by
  cases m with
  | unsupported kind raw => rfl
  | _ => exact filter_skippedTypes (by decide) _ _

end Reports

section Step

variable (mode : Mode) {node : Value}

theorem strayReports_of_not_definition (h : tagOf node ∉ definitionTags) :
    strayReports node = [] := by
  simp [strayReports, strayMembers, h]

/-- A node that is known and no definition gives an item and reports nothing but types. -/
theorem filter_skippedInRoot_of_plain {construct : Construct} {root : Idl.Root} {name : String}
    (h : construct ≠ .type) (hname : root.name? = some name)
    (hroot : ∀ kind d, root ≠ .definition kind d) :
    (skippedInRoot root).filter (·.construct = construct) = [] := by
  cases root with
  | definition kind d => exact absurd rfl (hroot kind d)
  | includes target mixin => rfl
  | enumeration name values => rfl
  | callback name returns arguments => exact filter_skippedTypes h _ _
  | typedef name type => exact filter_skippedTypes h _ _
  | unsupported kind raw => cases hname

theorem sources_singleton {root : Idl.Root} {name : String} (hname : root.name? = some name) :
    (convert mode [root]).items.map (fun item => some item.source) = [some name] := by
  cases root with
  | unsupported kind raw => cases hname
  | _ =>
      cases hname
      rfl

theorem reported_singleton (construct : Construct) (root : Idl.Root) :
    reported construct (convert mode [root]) =
      (skippedInRoot root).filter (·.construct = construct) := by
  rw [reported, diagnostics_convert, List.flatMap_singleton, notes_item]

theorem accountsFor_known {root : Idl.Root} {name : String} (hknown : isKnown node = true)
    (hsource : sourceName? node = some name) (hname : root.name? = some name)
    (hdefinitions : (skippedInRoot root).filter (·.construct = .definition) = [])
    (hmembers : (skippedInRoot root).filter (·.construct = .member) = strayReports node) :
    AccountsFor [node] (convert mode [root]) := by
  refine ⟨?_, ?_, ?_⟩
  · rw [sources_singleton mode hname, List.filter_singleton, hknown, cond_true,
      List.map_singleton, hsource]
  · rw [reported_singleton, hdefinitions, List.filter_singleton, isForeign_of_isKnown hknown,
      cond_false, List.map_nil]
  · rw [reported_singleton, hmembers, List.flatMap_singleton]

theorem accountsFor_definition (kind : Idl.DefinitionKind) {d : Idl.Definition}
    (htag : tagOf node ∈ definitionTags) (hsource : sourceName? node = some d.name)
    (hmembers : Idl.membersOf (itemsUnder "members" node) = .ok d.members) :
    AccountsFor [node] (convert mode [.definition kind d]) := by
  have hknown : isKnown node = true := decide_eq_true (List.mem_append_left _ htag)
  refine accountsFor_known mode hknown hsource rfl ?_ ?_
  · rw [skippedInRoot, List.filter_flatMap]
    exact List.flatMap_eq_nil_iff.mpr fun m _ => filter_definition_skippedInMember d m
  · rw [skippedInRoot, filter_skipped_of_membersOf d hmembers, strayReports, strayMembers,
      if_pos htag, hsource]

/-- A node that is not known gives no item, and its members are not looked at. -/
theorem accountsFor_unknown {c : Converted} (hknown : isKnown node = false)
    (hitems : c.items = []) (hdefinitions :
      reported .definition c = if isForeign node then [foreignReport node] else [])
    (hmembers : reported .member c = []) : AccountsFor [node] c := by
  have htag : tagOf node ∉ definitionTags :=
    fun h => of_decide_eq_false hknown (List.mem_append_left _ h)
  refine ⟨?_, ?_, ?_⟩
  · rw [hitems, List.filter_singleton, hknown]
    rfl
  · rw [hdefinitions, List.filter_singleton]
    cases isForeign node <;> rfl
  · rw [hmembers, List.flatMap_singleton, strayReports_of_not_definition htag]

theorem accountsFor_node {root? : Option Idl.Root} (h : Idl.Root.ofNode? node = .ok root?) :
    AccountsFor [node] (convert mode root?.toList) := by
  cases Idl.readsRoot h with
  | eof hend =>
      refine accountsFor_unknown (Idl.isKnown_of_isEnd hend) rfl ?_ rfl
      rw [Idl.isForeign_of_isEnd hend]
      rfl
  | foreign hforeign =>
      refine accountsFor_unknown (Idl.isKnown_of_isForeign hforeign) rfl ?_ rfl
      rw [if_pos hforeign]
      rfl
  | definition kind d htag hsource hmembers =>
      exact accountsFor_definition mode kind htag hsource hmembers
  | plain root name hknown htag hsource hname hroot =>
      refine accountsFor_known mode hknown hsource hname ?_ ?_
      · exact filter_skippedInRoot_of_plain (by decide) hname hroot
      · rw [strayReports_of_not_definition htag]
        exact filter_skippedInRoot_of_plain (by decide) hname hroot

theorem accountsFor_nodes {nodes : List Value} {roots : List Idl.Root}
    (h : Idl.rootsOf nodes = .ok roots) : AccountsFor nodes (convert mode roots) := by
  induction nodes generalizing roots with
  | nil =>
      cases h
      exact ⟨rfl, rfl, rfl⟩
  | cons node rest ih =>
      obtain ⟨root?, hroot, h⟩ := Idl.bind_eq_ok_iff.mp h
      obtain ⟨others, hothers, h⟩ := Idl.bind_eq_ok_iff.mp h
      cases h
      rw [convert_append]
      exact (accountsFor_node mode hroot).append (ih hothers)

end Step

/-- Every node but the marks of the end gives an item or a report. -/
theorem AccountsFor.length_add_length {nodes : List Value} {c : Converted}
    (h : AccountsFor nodes c) :
    c.items.length + (reported .definition c).length =
      (nodes.filter fun node => !isEnd node).length := by
  have hitems : c.items.length = (nodes.filter isKnown).length := by
    simpa using congrArg List.length h.sources
  rw [hitems, h.definitions, List.length_map, Idl.length_filter_isKnown_add]

/-- **Nothing is lost.** Of the nodes of a document the known ones give the items, in order and
under their names. Those that are foreign and those members that are stray are reported as they are,
each once and in order, so that every node but the marks of the end is accounted for. -/
theorem convert_accountsFor_of_load (mode : Mode) {nodes : List Value} {roots : List Idl.Root}
    (h : Idl.load (.array nodes) = .ok roots) :
    AccountsFor nodes (convert mode roots) ∧
      (convert mode roots).items.length + (reported .definition (convert mode roots)).length =
        (nodes.filter fun node => !isEnd node).length := by
  have haccounts : AccountsFor nodes (convert mode roots) := accountsFor_nodes mode h
  exact ⟨haccounts, haccounts.length_add_length⟩

def strayNode (tag : String) (types : List Value) : Value :=
  .object [("idlType", .array types), ("type", .string tag)]

/-- An includes statement, a definition with three stray members and a set of a type of unknown
form, a node without a tag, and the mark of the end. -/
def patchyDocument : List Value :=
  [.object [("includes", .string "Mixed"), ("target", .string "Patchy"),
      ("type", .string "includes")],
    .object [
      ("members", .array [strayNode "iterable" [], .number (.integer 7),
        strayNode "setlike" [.string "long"], strayNode "maplike" [.string "long"]]),
      ("name", .string "Patchy"), ("type", .string "dictionary")],
    .object [("name", .string "Lost")],
    .object [("type", .string "eof")]]

def patchyRoots : List Idl.Root :=
  [.includes "Patchy" "Mixed",
    .definition .dictionary
      { name := "Patchy"
        inheritance := none
        members := [
          .unsupported "iterable" (strayNode "iterable" []),
          .unsupported "" (.number (.integer 7)),
          .setlike (.unsupported (.string "long")) false,
          .unsupported "maplike" (strayNode "maplike" [.string "long"])]
        extAttrs := .ofList [] },
    .unsupported "" (.object [("name", .string "Lost")])]

theorem convert_patchyDocument :
    Idl.load (.array patchyDocument) = .ok patchyRoots ∧
      AccountsFor patchyDocument (convert .runtime patchyRoots) ∧
      reported .definition (convert .runtime patchyRoots) =
        [⟨.definition, none, Value.dump (.object [("name", .string "Lost")])⟩] ∧
      reported .member (convert .runtime patchyRoots) =
        [⟨.member, some "Patchy", (strayNode "iterable" []).dump⟩,
          ⟨.member, some "Patchy", Value.dump (.number (.integer 7))⟩,
          ⟨.member, some "Patchy", (strayNode "maplike" [.string "long"]).dump⟩] := by
  have hload : Idl.load (.array patchyDocument) = .ok patchyRoots := rfl
  obtain ⟨haccounts, -⟩ := convert_accountsFor_of_load .runtime hload
  exact ⟨hload, haccounts, haccounts.definitions, haccounts.members⟩

end IdlTypings.Conversion
