import IdlTypings.Proofs.Command.Inputs

/-!
# What a run hands out

Nothing that a run shows or writes depends on how the definitions came in. The text, the warnings and
the report are made from the configuration and the definitions first, and then handed out: the text
to the output file or the standard output, the report to a file that is named after the output.
-/

namespace IdlTypings.Command

open Idl (Root)
open Settings (Config)

/-- The report is there only if one was asked for. -/
structure Delivery where
  text : String
  warnings : String
  report : Option String

namespace Delivery

def of (a : Arguments) (config : Config) (roots : List Root) : Delivery :=
  let settings := IdlTypings.Settings.resolve a config
  let converted := convert settings.mode roots
  { text := outputText settings converted
    warnings := Warnings.render Warnings.plain a.debug converted.diagnostics
    report := if settings.report then some (Report.render converted) else none }

/-- The files after the text and then the report were written. -/
def writeReportText (t : FileTree) (base : String) : Option String → Except RunError FileTree
  | none => .ok t
  | some report => (t.writeText (Report.path base) report).mapError (.report base)

/-- The name that the report is named after. -/
def reportBase (out : Option String) : String := out.getD defaultReportBase

/-- What is shown on the standard output. -/
def shown (d : Delivery) (out : Option String) : String :=
  if out.isSome then "" else d.text

def handOut (d : Delivery) (t : FileTree) (out : Option String) : Outcome :=
  match writeOutput t d.text out with
  | .error error => ⟨1, d.shown out, d.warnings ++ error.text, t⟩
  | .ok written =>
      match writeReportText written (reportBase out) d.report with
      | .error error => ⟨1, d.shown out, d.warnings ++ error.text, written⟩
      | .ok finished => ⟨0, d.shown out, d.warnings, finished⟩

end Delivery

theorem deliver_eq_handOut (t : FileTree) (a : Arguments) (config : Config) (roots : List Root) :
    let settings := IdlTypings.Settings.resolve a config
    deliver t a settings (convert settings.mode roots) =
      (Delivery.of a config roots).handOut t a.out := by
  intro settings
  unfold deliver Delivery.handOut
  dsimp only [Delivery.of, Delivery.shown]
  cases writeOutput t (outputText settings (convert settings.mode roots)) a.out with
  | error error => rfl
  | ok written =>
      by_cases hreport : settings.report = true
      · simp only [settings] at hreport
        simp only [hreport, settings]
        rfl
      · simp only [settings] at hreport
        simp only [hreport, settings]
        rfl

section Run

variable {t : FileTree} {stdin : ByteArray} {arguments : List String} {a : Arguments}
  {error : RunError} {config : Config} {roots : List Root}

theorem run_of_configFails (hparse : Request.parse arguments = .run a)
    (h : ConfigFails t a.config error) : run t stdin arguments = ⟨1, "", error.text, t⟩ := by
  have hload : loadConfig t a.config = .error error := loadConfig_eq_error_iff.mpr h
  rw [run, hparse]
  simp only [runArguments, prepare, hload]
  rfl

theorem run_of_inputs_error (hparse : Request.parse arguments = .run a)
    (hconfig : loadConfig t a.config = .ok config)
    (h : loadInputs t stdin a.inputs = .error error) :
    run t stdin arguments = ⟨1, "", error.text, t⟩ := by
  rw [run, hparse]
  simp only [runArguments, prepare, hconfig, h]
  rfl

theorem run_of_inputs (hparse : Request.parse arguments = .run a)
    (hconfig : loadConfig t a.config = .ok config)
    (h : loadInputs t stdin a.inputs = .ok roots) :
    run t stdin arguments = (Delivery.of a config roots).handOut t a.out := by
  rw [← deliver_eq_handOut, run, hparse]
  simp only [runArguments, prepare, hconfig, h]
  rfl

end Run

end IdlTypings.Command
