import IdlTypings.Proofs.Command.Writing
import Mathlib

/-!
# Reading comes first

Whatever can be wrong with what a run reads is found before anything is shown or written, so a run
that fails over it leaves everything as it was and shows one error. What is read but not supported is
no reason to fail: once all is read, only the writing can go wrong.
-/

namespace IdlTypings.Command

open Idl (Root)
open Settings (Config)

/-- What is wrong with what a run reads. The configuration is read before the inputs, and the first
input that fails decides, whatever was found in those before it. -/
inductive ReadingFails (t : FileTree) (stdin : ByteArray) (a : Arguments) : RunError → Prop where
  | config {error : RunError} (h : ConfigFails t a.config error) : ReadingFails t stdin a error
  | input {before after : List Input} {input : Input} {error : RunError}
      (hconfig : ∀ e, ¬ ConfigFails t a.config e)
      (hinputs : inputsOf stdin a.inputs = before ++ input :: after)
      (hbefore : ∀ earlier ∈ before, ∀ e, ¬ earlier.Fails t e)
      (h : input.Fails t error) : ReadingFails t stdin a error

/-- The first line names what failed, each further line a cause. -/
theorem RunError.text_eq (error : RunError) :
    ∃ failure causes, error.chain = failure :: causes ∧
      error.text = "error: " ++ failure ++ "\n" ++ String.join (causes.map causeText) := by
  obtain ⟨failure, causes, hchain⟩ : ∃ failure causes, error.chain = failure :: causes := by
    cases error <;> exact ⟨_, _, rfl⟩
  exact ⟨failure, causes, hchain, by rw [RunError.text, hchain]⟩

section

variable {t : FileTree} {stdin : ByteArray} {arguments : List String} {a : Arguments}
  {error : RunError}

theorem firstError_load_iff {inputs : List Input} :
    FirstError (Input.load t) inputs error ↔
      ∃ before input after, inputs = before ++ input :: after ∧
        (∀ earlier ∈ before, ∀ e, ¬ earlier.Fails t e) ∧ input.Fails t error := by
  simp only [FirstError, Input.load_eq_error_iff, Input.load_ok_iff]

/-- A run whose reading fails shows the error and nothing else. -/
theorem run_of_readingFails (hparse : Request.parse arguments = .run a)
    (h : ReadingFails t stdin a error) : run t stdin arguments = ⟨1, "", error.text, t⟩ := by
  cases h with
  | config h => exact run_of_configFails hparse h
  | input hconfig hinputs hbefore h =>
      obtain ⟨config, hload⟩ := loadConfig_ok_iff.mpr hconfig
      -- the configuration is good, so the inputs are read up to the one that fails
      refine run_of_inputs_error hparse hload ?_
      rw [loadInputs_eq_loadAll, Input.loadAll_eq_error_iff, firstError_load_iff]
      exact ⟨_, _, _, hinputs, hbefore, h⟩

theorem exists_readingFails
    (h : (∃ e, ConfigFails t a.config e) ∨
      ∃ input ∈ inputsOf stdin a.inputs, ∃ e, input.Fails t e) :
    ∃ error, ReadingFails t stdin a error := by
  by_cases hconfig : ∃ e, ConfigFails t a.config e
  · obtain ⟨error, herror⟩ := hconfig
    exact ⟨error, .config herror⟩
  · obtain ⟨input, hinput, error, herror⟩ := h.resolve_left hconfig
    obtain ⟨first, hfirst⟩ | hall :=
      firstError_or_forall_ok (Input.load t) (inputsOf stdin a.inputs)
    · obtain ⟨before, input, after, hinputs, hbefore, hfails⟩ := firstError_load_iff.mp hfirst
      exact ⟨first, .input (fun e he => hconfig ⟨e, he⟩) hinputs hbefore hfails⟩
    · exact absurd herror (Input.load_ok_iff.mp (hall input hinput) error)

theorem exists_of_inputs_ok (h : ∀ input ∈ inputsOf stdin a.inputs, ∀ e, ¬ input.Fails t e) :
    ∃ roots, loadInputs t stdin a.inputs = .ok roots := by
  cases hload : loadInputs t stdin a.inputs with
  | ok roots => exact ⟨roots, rfl⟩
  | error error =>
      rw [loadInputs_eq_loadAll, Input.loadAll_eq_error_iff, firstError_load_iff] at hload
      obtain ⟨before, input, after, hinputs, -, hfails⟩ := hload
      have hmem : input ∈ inputsOf stdin a.inputs := by
        rw [hinputs]
        exact List.mem_append_right _ List.mem_cons_self
      exact absurd hfails (h input hmem error)

/-- The standard input is empty for the second input that names it. -/
theorem mem_inputsOf_of_stdin_twice {before after : List String} {path : String}
    (hinputs : a.inputs = before ++ path :: after) (hbefore : before.any isStdin = true) :
    ⟨path, .empty⟩ ∈ inputsOf stdin a.inputs := by
  rw [hinputs, inputsOf_append, if_pos hbefore]
  exact List.mem_append_right _ List.mem_cons_self

/-- A report is asked for by the flag or in the configuration. -/
theorem isSome_report_of {config : Config} {roots : List Root} :
    (Delivery.of a config roots).report.isSome = true ↔
      a.report = true ∨ config.output.report = some true := by
  have hresolved : (Settings.resolve a config).report = true ↔
      a.report = true ∨ config.output.report = some true := by
    rw [Settings.resolve, Bool.or_eq_true]
    cases config.output.report <;> simp
  rw [← hresolved]
  dsimp only [Delivery.of]
  split
  · next h => exact iff_of_true rfl h
  · next h => exact iff_of_false nofun h

end

def gadgetText : String := "[\x7b\"type\":\"gadget\"\x7d]"

def gadgetAndConfig : FileTree where
  here := ["work"]
  files := [(["work", "a"], gadgetText.toUTF8), (["work", "c"], "".toUTF8)]
  directories := []

theorem not_fails_of_gadgetText {path : String} {stdin : ByteArray}
    (h : (Input.mk path stdin).text gadgetAndConfig = .ok gadgetText) (e : RunError) :
    ¬ (Input.mk path stdin).Fails gadgetAndConfig e := by
  have hholds : (Input.mk path stdin).Holds gadgetAndConfig [.object [("type", .string "gadget")]] :=
    ⟨gadgetText, h, by cbv⟩
  exact Input.load_ok_iff.mp ⟨_, Input.load_of_holds hholds⟩ e

end IdlTypings.Command
