import IdlTypings.Diagnostic
import IdlTypings.Text.Lines

/-!
# Warnings

Diagnostics as they are shown on a terminal.
-/

namespace IdlTypings.Warnings

/-- Control sequences that set a colour and take it back. -/
structure Colour where
  start : String
  stop : String

def plain : Colour := ⟨"", ""⟩

/-- Bold yellow. -/
def yellow : Colour := ⟨"\x1b[0m\x1b[1m\x1b[33m", "\x1b[0m"⟩

def dumpLine (line : List Char) : String :=
  "  | " ++ String.ofList line ++ "\n"

def dumpText (d : Diagnostic) : String :=
  String.join ((Text.lines d.dump.toList).map dumpLine)

def warningText (colour : Colour) (verbose : Bool) (d : Diagnostic) : String :=
  colour.start ++ "warning" ++ colour.stop ++ ": " ++ d.text ++ "\n" ++
    if verbose then dumpText d else ""

def summary (count : Nat) : String :=
  if count = 0 then ""
  else
    toString count ++ " unsupported construct" ++ (if count = 1 then "" else "s") ++ " skipped\n"

/-- A line for each diagnostic, with all of what was skipped if `verbose`, and their number. -/
def render (colour : Colour) (verbose : Bool) (diagnostics : List Diagnostic) : String :=
  String.join (diagnostics.map (warningText colour verbose)) ++ summary diagnostics.length

end IdlTypings.Warnings
