import IdlTypings.Proofs.Command.Delivery
import Mathlib

/-!
# Splitting the definitions over inputs

Definitions may come in one array or in several, from files or from the standard input: a run hands
out the same. The first error decides in an array, in a definition and in a list of inputs, so an
array that is cut in two has the error of its first part, or else that of its second part.
-/

namespace IdlTypings.Command

open Idl (LoadError Member DefinitionFields Root definitionTags fieldsOf itemsUnder tagOf)
open Json (Value)
open Settings (Config)

section

variable {t t' : FileTree} {stdin stdin' : ByteArray} {arguments arguments' : List String}
  {a : Arguments} {single : String} {arrays : List (List Value)} {config : Config}

/-- A run on inputs that hold arrays that load hands out what is in all of them. -/
theorem run_of_holds (hparse : Request.parse arguments = .run a)
    (hconfig : loadConfig t a.config = .ok config)
    (hholds : List.Forall₂ (Input.Holds t) (inputsOf stdin a.inputs) arrays)
    (hload : ∀ nodes ∈ arrays, ∃ roots, Idl.load (.array nodes) = .ok roots) :
    ∃ roots, Idl.load (.array arrays.flatten) = .ok roots ∧
      run t stdin arguments = (Delivery.of a config roots).handOut t a.out := by
  obtain ⟨roots, hinputs, hroots⟩ := Input.loadAll_of_holds hholds hload
  rw [← loadInputs_eq_loadAll] at hinputs
  exact ⟨roots, hroots, run_of_inputs hparse hconfig hinputs⟩

theorem run_of_holds_single (hparse' : Request.parse arguments' = .run { a with inputs := [single] })
    (hconfig : loadConfig t' a.config = .ok config)
    (hholds' : Input.Holds t' ⟨single, stdin'⟩ arrays.flatten) {roots : List Root}
    (hroots : Idl.load (.array arrays.flatten) = .ok roots) :
    run t' stdin' arguments' = (Delivery.of a config roots).handOut t' a.out := by
  have hsingle : List.Forall₂ (Input.Holds t') (inputsOf stdin' [single]) [arrays.flatten] :=
    .cons hholds' .nil
  have hflatten : [arrays.flatten].flatten = arrays.flatten := List.append_nil _
  obtain ⟨others, hothers, hrun⟩ := run_of_holds hparse' hconfig hsingle
    (List.forall_mem_singleton.mpr ⟨roots, hroots⟩)
  rw [hflatten, hroots] at hothers
  cases hothers
  exact hrun

end

/-- **Only the definitions matter, not how they are split over inputs.** -/
theorem run_inputs_concatenated :
    (∀ first second : List Value,
      Idl.load (.array (first ++ second)) =
        match Idl.load (.array first) with
        | .error error => .error error
        | .ok roots =>
            match Idl.load (.array second) with
            | .error error => .error error
            | .ok more => .ok (roots ++ more)) ∧
    (∀ (node : Value) (error : LoadError), tagOf node ∈ definitionTags →
      (Idl.load (.array [node]) = .error error ↔
        (∃ e, DefinitionFields.ofFields (fieldsOf node) = .error e ∧
          error = .malformed (tagOf node) e) ∨
        (∃ fields, DefinitionFields.ofFields (fieldsOf node) = .ok fields) ∧
          FirstError Member.ofNode (itemsUnder "members" node) error)) ∧
    ∀ (t t' : FileTree) (stdin stdin' : ByteArray) (arguments arguments' : List String)
      (a : Arguments) (single : String) (arrays : List (List Value)),
      Request.parse arguments = .run a →
      Request.parse arguments' = .run { a with inputs := [single] } →
      loadConfig t' a.config = loadConfig t a.config →
      List.Forall₂ (Input.Holds t) (inputsOf stdin a.inputs) arrays →
      (∀ nodes ∈ arrays, ∃ roots, Idl.load (.array nodes) = .ok roots) →
      Input.Holds t' ⟨single, stdin'⟩ arrays.flatten →
      (∀ error, ConfigFails t a.config error →
        run t stdin arguments = ⟨1, "", error.text, t⟩ ∧
          run t' stdin' arguments' = ⟨1, "", error.text, t'⟩) ∧
      (∀ config, loadConfig t a.config = .ok config →
        ∃ roots, Idl.load (.array arrays.flatten) = .ok roots ∧
          run t stdin arguments = (Delivery.of a config roots).handOut t a.out ∧
          run t' stdin' arguments' = (Delivery.of a config roots).handOut t' a.out) ∧
      (t' = t → run t' stdin' arguments' = run t stdin arguments) := by
  refine ⟨fun first second => Idl.rootsOf_append first second,
    fun node error htag => Idl.load_definition_eq_error_iff htag, ?_⟩
  intro t t' stdin stdin' arguments arguments' a single arrays hparse hparse' hconfig hholds hload
    hholds'
  have hrefused : ∀ error, ConfigFails t a.config error →
      run t stdin arguments = ⟨1, "", error.text, t⟩ ∧
        run t' stdin' arguments' = ⟨1, "", error.text, t'⟩ := by
    intro error h
    have hfails' : ConfigFails t' a.config error := by
      rw [← loadConfig_eq_error_iff, hconfig]
      exact loadConfig_eq_error_iff.mpr h
    exact ⟨run_of_configFails hparse h, run_of_configFails hparse' hfails'⟩
  have hdelivered : ∀ config, loadConfig t a.config = .ok config →
      ∃ roots, Idl.load (.array arrays.flatten) = .ok roots ∧
        run t stdin arguments = (Delivery.of a config roots).handOut t a.out ∧
        run t' stdin' arguments' = (Delivery.of a config roots).handOut t' a.out := by
    intro config h
    obtain ⟨roots, hroots, hrun⟩ := run_of_holds hparse h hholds hload
    exact ⟨roots, hroots, hrun,
      run_of_holds_single hparse' (hconfig.trans h) hholds' hroots⟩
  refine ⟨hrefused, hdelivered, ?_⟩
  -- in one tree both runs hand the same out to the same place
  rintro rfl
  cases hloaded : loadConfig t' a.config with
  | error error =>
      obtain ⟨hrun, hrun'⟩ := hrefused error (loadConfig_eq_error_iff.mp hloaded)
      rw [hrun, hrun']
  | ok config =>
      obtain ⟨roots, -, hrun, hrun'⟩ := hdelivered config hloaded
      rw [hrun, hrun']

def endNode : Value := .object [("type", .string "eof")]

def gadgetNode : Value := .object [("type", .string "gadget")]

def includesNode : Value :=
  .object [("includes", .string "M"), ("target", .string "A"), ("type", .string "includes")]

def endAndGadgetText : String :=
  "[\x7b\"type\":\"eof\"\x7d,\x7b\"type\":\"gadget\"\x7d]"

def includesText : String :=
  "[\x7b\"type\":\"includes\",\"target\":\"A\",\"includes\":\"M\"\x7d]"

def allThreeText : String :=
  "[\x7b\"type\":\"eof\"\x7d,\x7b\"type\":\"gadget\"\x7d," ++
    "\x7b\"type\":\"includes\",\"target\":\"A\",\"includes\":\"M\"\x7d]"

def twoFiles : FileTree where
  here := ["work"]
  files :=
    [(["work", "a"], endAndGadgetText.toUTF8), (["work", "b"], allThreeText.toUTF8)]
  directories := []

def twoArrays : List (List Value) := [[endNode, gadgetNode], [includesNode]]

/-- A file and the standard input, against a file that holds what both of them hold. -/
theorem run_endAndGadget_includes :
    Request.parse ["--report", "a", "-"] =
        .run { Arguments.empty with inputs := ["a", "-"], report := true } ∧
      Request.parse ["--report", "b"] =
        .run { Arguments.empty with inputs := ["b"], report := true } ∧
      List.Forall₂ (Input.Holds twoFiles) (inputsOf includesText.toUTF8 ["a", "-"]) twoArrays ∧
      (∀ nodes ∈ twoArrays, ∃ roots, Idl.load (.array nodes) = .ok roots) ∧
      Input.Holds twoFiles ⟨"b", .empty⟩ twoArrays.flatten ∧
      run twoFiles .empty ["--report", "b"] =
        run twoFiles includesText.toUTF8 ["--report", "a", "-"] := by
  have hparse : Request.parse ["--report", "a", "-"] =
      .run { Arguments.empty with inputs := ["a", "-"], report := true } := by
    decide
  have hparse' : Request.parse ["--report", "b"] =
      .run { Arguments.empty with inputs := ["b"], report := true } := by
    decide
  have hnot : isStdin "a" = false := by cbv
  have hfirst : Input.Holds twoFiles ⟨"a", includesText.toUTF8⟩ [endNode, gadgetNode] := by
    have hroute : Route.parse "a" = .ok ⟨false, [], "a", false⟩ := by cbv
    have hread : twoFiles.readText "a" = .ok endAndGadgetText :=
      Input.readText_of_find hroute rfl rfl
    exact ⟨endAndGadgetText, Input.text_of_readText hnot hread, by cbv⟩
  have hsecond : Input.Holds twoFiles ⟨"-", includesText.toUTF8⟩ [includesNode] :=
    ⟨includesText, Input.text_of_stdin (by cbv), by cbv⟩
  have hinputs : inputsOf includesText.toUTF8 ["a", "-"] =
      [⟨"a", includesText.toUTF8⟩, ⟨"-", includesText.toUTF8⟩] := by
    rw [inputsOf, hnot]
    rfl
  have hholds :
      List.Forall₂ (Input.Holds twoFiles) (inputsOf includesText.toUTF8 ["a", "-"]) twoArrays := by
    rw [hinputs]
    exact .cons hfirst (.cons hsecond .nil)
  have hload : ∀ nodes ∈ twoArrays, ∃ roots, Idl.load (.array nodes) = .ok roots :=
    List.forall_mem_cons.mpr ⟨⟨_, rfl⟩, List.forall_mem_singleton.mpr ⟨_, rfl⟩⟩
  have hall : Input.Holds twoFiles ⟨"b", .empty⟩ twoArrays.flatten := by
    have hroute : Route.parse "b" = .ok ⟨false, [], "b", false⟩ := by cbv
    have hread : twoFiles.readText "b" = .ok allThreeText :=
      Input.readText_of_find hroute rfl rfl
    exact ⟨allThreeText, Input.text_of_readText (by cbv) hread, by cbv⟩
  obtain ⟨-, -, hequal⟩ := run_inputs_concatenated.2.2 twoFiles twoFiles includesText.toUTF8 .empty
    _ _ _ "b" _ hparse hparse' rfl hholds hload hall
  exact ⟨hparse, hparse', hholds, hload, hall, hequal rfl⟩

end IdlTypings.Command
