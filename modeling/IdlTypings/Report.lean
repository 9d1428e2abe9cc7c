import IdlTypings.Conversion.Item

/-!
# Reports

A summary of a conversion in Markdown: how many declarations of each kind there are, and what was
skipped.
-/

namespace IdlTypings.Report

open Ts (Declaration DeclarationKind)

def count (declarations : List Declaration) (kind : DeclarationKind) : Nat :=
  declarations.countP fun declaration => declaration.kind = kind

/-- The kinds that occur, with their numbers. -/
def census (declarations : List Declaration) : List (DeclarationKind × Nat) :=
  (DeclarationKind.all.map fun kind => (kind, count declarations kind)).filter fun row => 0 < row.2

def rowText (row : DeclarationKind × Nat) : String :=
  "| " ++ row.1.label ++ " | " ++ toString row.2 ++ " |\n"

def tableText (declarations : List Declaration) : String :=
  if declarations.isEmpty then "None.\n"
  else "| kind | count |\n|---|---|\n" ++ String.join ((census declarations).map rowText)

def diagnosticText (d : Diagnostic) : String :=
  "- " ++ d.text ++ "\n\n```json\n" ++ d.dump ++ "\n```\n\n"

def diagnosticsText (diagnostics : List Diagnostic) : String :=
  if diagnostics.isEmpty then "No diagnostics.\n"
  else "## Diagnostics\n\n" ++ String.join (diagnostics.map diagnosticText)

def render (c : Converted) : String :=
  "# webidl2ts report\n\nConverted " ++ toString c.items.length ++
    " definitions.\n\n## Declarations\n\n" ++ tableText c.declarations ++ "\n" ++
    diagnosticsText c.diagnostics

/-- Where the report on an output goes. -/
def path (output : String) : String :=
  output ++ ".report.md"

end IdlTypings.Report
