import IdlTypings.Proofs.Conversion.Provenance
import IdlTypings.Proofs.Json.ReadBack

/-!
# Dumps can be loaded

The dump of a diagnostic is a JSON text, so it can be loaded like a document. What is loaded is what
the value was that was dumped, or it is refused as this value would be.
-/

namespace IdlTypings.Idl

open Json (Value)

theorem loadText_dump {value : Value} (hexact : value.IsExact)
    (hdepth : value.depth ≤ Json.depthLimit) : loadText value.dump = load value := by
  rw [loadText, Json.parse_dump hexact hdepth]

theorem ofText?_of_isForeign {node : Value} (h : isForeign node = true) :
    RootTag.ofText? (tagOf node) = none := by
  cases htag : RootTag.ofText? (tagOf node) with
  | none => rfl
  | some tag =>
      have htext : tag.text = tagOf node := (RootTag.eq_text_of_ofText? _ _ htag).symm
      by_cases heof : tag = .eof
      · have hend : isEnd node = true := by
          rw [heof] at htext
          exact decide_eq_true htext.symm
        rw [isForeign_of_isEnd hend] at h
        cases h
      · have hknown : isKnown node = true := decide_eq_true (mem_rootTags_iff.mpr ⟨tag, heof, htext⟩)
        rw [isForeign_of_isKnown hknown] at h
        cases h

theorem load_of_isForeign {node : Value} (h : isForeign node = true) :
    load (.array [node]) = .ok [.unsupported (tagOf node) node] := by
  have hroot : Root.ofNode? node = .ok (some (.unsupported (tagOf node) node)) := by
    rw [Root.ofNode?, ofText?_of_isForeign h]
  rw [load, rootsOf, hroot]
  rfl

end IdlTypings.Idl

namespace IdlTypings.Conversion

open Json (Value)
open Idl (isForeign)

/-- **Dumps.** The dump of an exact value loads as the value itself does, whether it is accepted or
refused, if the containers in it are nested no deeper than a text allows. A document that consists of
one foreign node is reported by the same dump when it was dumped and loaded again. -/
theorem loadText_dump_of_unsupported :
    (∀ (construct : Construct) (owner : Option String) (value : Value), value.IsExact →
      value.depth ≤ Json.depthLimit →
      Idl.loadText (Diagnostic.unsupported construct owner value).dump = Idl.load value) ∧
    ∀ (mode : Mode) (node : Value), node.IsExact → (Value.array [node]).depth ≤ Json.depthLimit →
      isForeign node = true →
      ∃ roots, Idl.load (.array [node]) = .ok roots ∧
        Idl.loadText (Value.array [node]).dump = .ok roots ∧
        (convert mode roots).diagnostics = [⟨.definition, none, node.dump⟩] := by
  constructor
  · intro construct owner value hexact hdepth
    exact Idl.loadText_dump hexact hdepth
  · intro mode node hexact hdepth hforeign
    have hdocument : (Value.array [node]).IsExact := ⟨hexact, trivial⟩
    have hload : Idl.load (.array [node]) = .ok [.unsupported (Idl.tagOf node) node] :=
      Idl.load_of_isForeign hforeign
    refine ⟨_, hload, ?_, rfl⟩
    rw [Idl.loadText_dump hdocument hdepth, hload]

/-! ### A deep node -/

/-- The value as the innermost item of as many arrays, each with one item. -/
def nested : Nat → Value → Value
  | 0, value => value
  | n + 1, value => .array [nested n value]

theorem isExact_nested {value : Value} (h : value.IsExact) (n : Nat) : (nested n value).IsExact := by
  induction n with
  | zero => exact h
  | succ n ih => exact ⟨ih, trivial⟩

theorem depth_nested (value : Value) (n : Nat) : (nested n value).depth = value.depth + n := by
  induction n with
  | zero => rfl
  | succ n ih =>
      calc (nested (n + 1) value).depth
          = max (nested n value).depth 0 + 1 := rfl
        _ = value.depth + (n + 1) := by omega

/-- A node with a tag that is only almost the mark of the end, and with all that is hard to write:
quotes, control characters, the extreme integers, and containers as deep as they may be. -/
def deepNode : Value :=
  .object [("", .object []), ("\x00\"\\", .string "\n\x1f \x7f é😀"), ("deep", nested 124 (.array [])),
    ("largest", .number (.integer 18446744073709551615)),
    ("least", .number (.integer (-9223372036854775808))), ("type", .string "eof ")]

theorem loadText_dump_deepNode :
    (deepNode.IsExact ∧ isForeign deepNode = true ∧
        (Value.array [deepNode]).depth = Json.depthLimit) ∧
      Idl.loadText (Diagnostic.unsupported .type (some "Deep") (.array [deepNode])).dump =
        .ok [.unsupported "eof " deepNode] ∧
      ∃ roots, Idl.loadText (Value.array [deepNode]).dump = .ok roots ∧
        (convert .runtime roots).diagnostics = [⟨.definition, none, deepNode.dump⟩] := by
  have hdepth : (Value.array [deepNode]).depth = Json.depthLimit := by
    simp [deepNode, Value.depth, Json.itemsDepth, Json.fieldsDepth, depth_nested, Json.depthLimit]
  have hempty : (Value.array []).IsExact := trivial
  have hlargest : Json.FitsWord 18446744073709551615 := by decide
  have hleast : Json.FitsWord (-9223372036854775808) := by decide
  have hnode : deepNode.IsExact :=
    ⟨by decide, ⟨by decide, trivial⟩, trivial, isExact_nested hempty 124, hlargest, hleast, trivial,
      trivial⟩
  have hforeign : isForeign deepNode = true := by decide
  obtain ⟨hload, hreport⟩ := loadText_dump_of_unsupported
  refine ⟨⟨hnode, hforeign, hdepth⟩, ?_, ?_⟩
  · rw [hload .type (some "Deep") (.array [deepNode]) ⟨hnode, trivial⟩ (Nat.le_of_eq hdepth)]
    exact Idl.load_of_isForeign hforeign
  · obtain ⟨roots, -, htext, hdiagnostics⟩ :=
      hreport .runtime deepNode hnode (Nat.le_of_eq hdepth) hforeign
    exact ⟨roots, htext, hdiagnostics⟩

end IdlTypings.Conversion
