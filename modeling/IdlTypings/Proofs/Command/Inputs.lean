import IdlTypings.Command.Run
import IdlTypings.Proofs.Idl.FirstError
import Mathlib.Data.List.Forall2

/-!
# What a run reads

The configuration and the inputs of a run, and how each of them can fail: it cannot be read, its text
is not of the right form, or the text does not hold what it should. The standard input is read by the
first input that names it and empty after that.
-/

namespace IdlTypings.Command

open Idl (LoadError Root)
open Json (Value)
open Settings (Config ConfigError)

/-! ### The configuration -/

/-- The configuration file: the one that is named, or the default one if there is one. -/
def configPath? (t : FileTree) : Option String → Option String
  | some path => some path
  | none => if t.has defaultConfigFile then some defaultConfigFile else none

inductive ConfigFails (t : FileTree) (named : Option String) : RunError → Prop where
  | unreadable {path : String} {error : FileError} (hpath : configPath? t named = some path)
      (h : t.readText path = .error error) : ConfigFails t named (.configFile path error)
  | undecodable {path text : String} {error : ConfigError}
      (hpath : configPath? t named = some path) (htext : t.readText path = .ok text)
      (h : Config.parse text = .error error) : ConfigFails t named (.config path error)

theorem loadConfig_eq (t : FileTree) (named : Option String) :
    loadConfig t named =
      match configPath? t named with
      | some path => loadConfigFile t path
      | none => .ok .default := by
  cases named with
  | some path => rfl
  | none =>
      rw [loadConfig, configPath?]
      split <;> rfl

theorem loadConfig_eq_error_iff {t : FileTree} {named : Option String} {error : RunError} :
    loadConfig t named = .error error ↔ ConfigFails t named error := by
  rw [loadConfig_eq]
  constructor
  · intro h
    cases hpath : configPath? t named with
    | none =>
        rw [hpath] at h
        cases h
    | some path =>
        simp only [hpath, loadConfigFile] at h
        cases htext : t.readText path with
        | error e =>
            rw [htext] at h
            cases h
            exact .unreadable hpath htext
        | ok text =>
            simp only [htext] at h
            cases hparse : Config.parse text with
            | error e =>
                rw [hparse] at h
                cases h
                exact .undecodable hpath htext hparse
            | ok config =>
                rw [hparse] at h
                cases h
  · rintro (⟨hpath, h⟩ | ⟨hpath, htext, h⟩)
    · simp only [hpath, loadConfigFile, h]
    · simp only [hpath, loadConfigFile, htext, h]

theorem loadConfig_ok_iff {t : FileTree} {named : Option String} :
    (∃ config, loadConfig t named = .ok config) ↔ ∀ error, ¬ ConfigFails t named error := by
  simp only [← loadConfig_eq_error_iff]
  exact exists_ok_iff

/-! ### The inputs -/

/-- An input, with what the standard input holds when its turn comes. -/
structure Input where
  path : String
  stdin : ByteArray

/-- The standard input can be read once. -/
def inputsOf (stdin : ByteArray) : List String → List Input
  | [] => []
  | path :: rest => ⟨path, stdin⟩ :: inputsOf (if isStdin path then .empty else stdin) rest

namespace Input

def text (t : FileTree) (input : Input) : Except RunError String :=
  if isStdin input.path then
    match String.fromUTF8? input.stdin with
    | some text => .ok text
    | none => .error .stdinText
  else
    match t.readText input.path with
    | .ok text => .ok text
    | .error error => .error (.inputFile input.path error)

/-- The error of an input whose text does not hold definitions. -/
def refusal (input : Input) (error : LoadError) : RunError :=
  if isStdin input.path then .stdin error else .input input.path error

def load (t : FileTree) (input : Input) : Except RunError (List Root) :=
  if isStdin input.path then loadStdin input.stdin else loadFile t input.path

/-- How an input fails: it is missing or not text, its text is not JSON, the JSON is no array, or the
array holds a node that is malformed. -/
inductive Fails (t : FileTree) (input : Input) : RunError → Prop where
  | unreadable {error : RunError} (h : input.text t = .error error) : Fails t input error
  | notJson {text : String} {error : Json.SyntaxError} (htext : input.text t = .ok text)
      (h : Json.parse Json.depthLimit text = .error error) :
      Fails t input (input.refusal (.syntaxError error))
  | notArray {text : String} {value : Value} (htext : input.text t = .ok text)
      (hvalue : Json.parse Json.depthLimit text = .ok value)
      (h : ∀ nodes, value ≠ .array nodes) : Fails t input (input.refusal (.notArray value))
  | malformed {text : String} {nodes : List Value} {error : LoadError}
      (htext : input.text t = .ok text)
      (hvalue : Json.parse Json.depthLimit text = .ok (.array nodes))
      (h : FirstError Root.ofNode? nodes error) : Fails t input (input.refusal error)

/-- The text of the input is that of an array with these nodes. -/
def Holds (t : FileTree) (input : Input) (nodes : List Value) : Prop :=
  ∃ text, input.text t = .ok text ∧ Json.parse Json.depthLimit text = .ok (.array nodes)

section Text

variable {t : FileTree} {path text : String}

theorem fromUTF8?_toUTF8 (text : String) : String.fromUTF8? text.toUTF8 = some text :=
  dif_pos text.isValidUTF8

theorem text_of_stdin (hpath : isStdin path = true) :
    (Input.mk path text.toUTF8).text t = .ok text := by
  simp only [Input.text, hpath, fromUTF8?_toUTF8]
  rfl

theorem readText_of_find {route : Route} {place : List String}
    (hroute : Route.parse path = .ok route) (hslash : route.slash = false)
    (hfind : t.find route = .ok (.file place text.toUTF8)) : t.readText path = .ok text := by
  simp only [FileTree.readText, hroute, hfind, hslash, fromUTF8?_toUTF8, Idl.ok_bind]
  rfl

theorem text_of_readText {stdin : ByteArray} (hpath : isStdin path = false)
    (hread : t.readText path = .ok text) : (Input.mk path stdin).text t = .ok text := by
  simp only [Input.text, hpath, hread]
  rfl

end Text

section Load

variable {t : FileTree} {input : Input} {text : String}

/-- The text is found first, and then read. -/
theorem load_eq_bind (t : FileTree) (input : Input) :
    input.load t = (do
      let text ← input.text t
      (Idl.loadText text).mapError input.refusal) := by
  unfold Input.load Input.text
  by_cases hstdin : isStdin input.path = true
  · have hrefusal : input.refusal = .stdin := funext fun error => if_pos hstdin
    rw [if_pos hstdin, if_pos hstdin, loadStdin, hrefusal]
    cases String.fromUTF8? input.stdin with
    | none => rfl
    | some text =>
        dsimp only [Idl.ok_bind]
        cases Idl.loadText text <;> rfl
  · have hrefusal : input.refusal = .input input.path := funext fun error => if_neg hstdin
    rw [if_neg hstdin, if_neg hstdin, loadFile, hrefusal]
    cases t.readText input.path with
    | error e => rfl
    | ok text =>
        dsimp only [Idl.ok_bind]
        cases Idl.loadText text <;> rfl

theorem load_of_text_error {error : RunError} (h : input.text t = .error error) :
    input.load t = .error error := by
  rw [load_eq_bind, h]
  rfl

theorem load_of_text (h : input.text t = .ok text) :
    input.load t = (Idl.loadText text).mapError input.refusal := by
  rw [load_eq_bind, h, Idl.ok_bind]

theorem load_eq_error_iff {error : RunError} :
    input.load t = .error error ↔ input.Fails t error := by
  constructor
  · intro h
    cases htext : input.text t with
    | error e =>
        rw [load_of_text_error htext] at h
        exact Except.error.inj h ▸ .unreadable htext
    | ok text =>
        rw [load_of_text htext, Idl.loadText] at h
        cases hvalue : Json.parse Json.depthLimit text with
        | error e =>
            rw [hvalue] at h
            exact Except.error.inj h ▸ .notJson htext hvalue
        | ok value =>
            rw [hvalue] at h
            -- nodes are only looked at if the value is an array of them
            by_cases harray : ∃ nodes, value = .array nodes
            · obtain ⟨nodes, rfl⟩ := harray
              cases hroots : Idl.rootsOf nodes with
              | error e =>
                  simp only [Idl.load, hroots] at h
                  exact Except.error.inj h ▸
                    .malformed htext hvalue (Idl.rootsOf_eq_error_iff.mp hroots)
              | ok roots =>
                  simp only [Idl.load, hroots] at h
                  cases h
            · have hnot : ∀ nodes, value ≠ .array nodes := fun nodes heq => harray ⟨nodes, heq⟩
              simp only [Idl.load_of_not_array hnot] at h
              exact Except.error.inj h ▸ .notArray htext hvalue hnot
  · intro h
    cases h with
    | unreadable h => exact load_of_text_error h
    | notJson htext h =>
        simp only [load_of_text htext, Idl.loadText, h]
        rfl
    | notArray htext hvalue h =>
        simp only [load_of_text htext, Idl.loadText, hvalue, Idl.load_of_not_array h]
        rfl
    | malformed htext hvalue h =>
        simp only [load_of_text htext, Idl.loadText, hvalue, Idl.load,
          Idl.rootsOf_eq_error_iff.mpr h]
        rfl

theorem load_ok_iff : (∃ roots, input.load t = .ok roots) ↔ ∀ error, ¬ input.Fails t error := by
  simp only [← load_eq_error_iff]
  exact exists_ok_iff

theorem load_of_holds {nodes : List Value} (h : input.Holds t nodes) :
    input.load t = (Idl.rootsOf nodes).mapError input.refusal := by
  obtain ⟨text, htext, hvalue⟩ := h
  simp only [load_of_text htext, Idl.loadText, hvalue, Idl.load]

end Load

/-! ### All inputs of a run -/

/-- The definitions of the inputs, one input after the other. -/
def loadAll (t : FileTree) : List Input → Except RunError (List Root)
  | [] => .ok []
  | input :: rest => do
      let roots ← input.load t
      let others ← loadAll t rest
      return roots ++ others

theorem loadAll_eq_error_iff {t : FileTree} {inputs : List Input} {error : RunError} :
    loadAll t inputs = .error error ↔ FirstError (Input.load t) inputs error :=
  eq_error_iff_firstError ⟨_, rfl⟩ fun _ _ => rfl

/-- What comes of the inputs comes of one array with all their nodes. -/
theorem loadAll_of_holds {t : FileTree} {inputs : List Input} {arrays : List (List Value)}
    (hholds : List.Forall₂ (Input.Holds t) inputs arrays)
    (hload : ∀ nodes ∈ arrays, ∃ roots, Idl.rootsOf nodes = .ok roots) :
    ∃ roots, loadAll t inputs = .ok roots ∧ Idl.rootsOf arrays.flatten = .ok roots := by
  induction hholds with
  | nil => exact ⟨[], rfl, rfl⟩
  | cons h hrest ih =>
      obtain ⟨⟨roots, hroots⟩, hload⟩ := List.forall_mem_cons.mp hload
      obtain ⟨others, hinputs, hothers⟩ := ih hload
      refine ⟨roots ++ others, ?_, ?_⟩
      · rw [loadAll, load_of_holds h, hroots, hinputs]
        rfl
      · rw [List.flatten_cons, Idl.rootsOf_append, hroots, hothers]

end Input

theorem loadInputs_eq_loadAll (t : FileTree) (stdin : ByteArray) (paths : List String) :
    loadInputs t stdin paths = Input.loadAll t (inputsOf stdin paths) := by
  -- the standard input changes on the way, so it is not fixed in the induction
  induction paths generalizing stdin with
  | nil => rfl
  | cons path rest ih =>
      rw [loadInputs, inputsOf, Input.loadAll, Input.load, ← ih]
      split <;> rfl

/-- Once the standard input was read it is empty. -/
theorem inputsOf_append (stdin : ByteArray) (before rest : List String) :
    inputsOf stdin (before ++ rest) =
      inputsOf stdin before ++ inputsOf (if before.any isStdin then .empty else stdin) rest := by
  induction before generalizing stdin with
  | nil => rfl
  | cons path before ih =>
      rw [List.cons_append, inputsOf, inputsOf, ih, List.cons_append, List.any_cons]
      by_cases hpath : isStdin path = true
      · simp [hpath]
      · simp [hpath]

/-- The empty text is not JSON. -/
theorem fails_of_stdin_empty (t : FileTree) {path : String} (hpath : isStdin path = true) :
    ∃ error, (Input.mk path .empty).Fails t (.stdin (.syntaxError error)) := by
  have htext : (Input.mk path .empty).text t = .ok "" := if_pos hpath
  obtain ⟨error, herror⟩ : ∃ error, Json.parse Json.depthLimit "" = .error error := ⟨_, rfl⟩
  have hfails := Input.Fails.notJson htext herror
  rw [Input.refusal, if_pos hpath] at hfails
  exact ⟨error, hfails⟩

end IdlTypings.Command
