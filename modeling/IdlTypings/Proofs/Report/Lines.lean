import IdlTypings.Proofs.Text.Lines
import IdlTypings.Proofs.Ts.OneLine
import IdlTypings.Report

/-!
# The lines of a report

A report is written line by line: a heading, the table, and for each diagnostic a bullet and its
dump between two fences. The heading and the table hold no text from outside, so they split into
their lines whatever the diagnostics are.
-/

namespace IdlTypings.Report

open Text (piecesOf unlines)
open Ts (Declaration DeclarationKind OneLine)

/-- What stands above the table, for the number of definitions that were converted. -/
def headLines (count : Nat) : List String :=
  ["# webidl2ts report", "", "Converted " ++ toString count ++ " definitions.", "",
    "## Declarations", ""]

def rowLine (row : DeclarationKind × Nat) : String :=
  "| " ++ row.1.label ++ " | " ++ toString row.2 ++ " |"

/-- The lines of a table with these rows. -/
def tableLines (rows : List (DeclarationKind × Nat)) : List String :=
  if rows.isEmpty then ["None."] else ["| kind | count |", "|---|---|"] ++ rows.map rowLine

def openingFence : String := "```json"

def closingFence : String := "```"

def diagnosticLines (d : Diagnostic) : List String :=
  ["- " ++ d.text, "", openingFence] ++ piecesOf d.dump ++ [closingFence, ""]

def diagnosticsLines (diagnostics : List Diagnostic) : List String :=
  if diagnostics.isEmpty then ["No diagnostics."]
  else ["## Diagnostics", ""] ++ diagnostics.flatMap diagnosticLines

/-! ### Rows -/

theorem mem_kinds (kind : DeclarationKind) : kind ∈ DeclarationKind.all := by
  cases kind <;> decide

theorem mem_census_iff {declarations : List Declaration} {kind : DeclarationKind} {n : Nat} :
    (kind, n) ∈ census declarations ↔ n = count declarations kind ∧ 0 < n := by
  rw [census, List.mem_filter, List.mem_map, decide_eq_true_iff]
  constructor
  · rintro ⟨⟨_, -, hrow⟩, hpos⟩
    cases hrow
    exact ⟨rfl, hpos⟩
  · rintro ⟨rfl, hpos⟩
    exact ⟨⟨kind, mem_kinds kind, rfl⟩, hpos⟩

theorem count_pos_iff {declarations : List Declaration} {kind : DeclarationKind} :
    0 < count declarations kind ↔ kind ∈ declarations.map Declaration.kind := by
  rw [count, List.countP_pos_iff, List.mem_map]
  simp only [decide_eq_true_iff]

theorem census_eq_nil_iff {declarations : List Declaration} :
    census declarations = [] ↔ declarations = [] := by
  constructor
  · intro h
    cases declarations with
    | nil => rfl
    | cons first rest =>
        have hrow : (first.kind, count (first :: rest) first.kind) ∈ census (first :: rest) :=
          mem_census_iff.mpr ⟨rfl, count_pos_iff.mpr (.head _)⟩
        rw [h] at hrow
        cases hrow
  · rintro rfl
    rfl

/-! ### Written line by line -/

theorem unlines_map {α : Type} {line text : α → String} (h : ∀ a, text a = line a ++ "\n")
    (items : List α) : String.join (items.map text) = unlines (items.map line) := by
  rw [unlines, List.map_map]
  exact congrArg String.join (List.map_congr_left fun a _ => h a)

theorem tableText_eq (declarations : List Declaration) :
    tableText declarations = unlines (tableLines (census declarations)) := by
  have hrow : ∀ row, rowText row = rowLine row ++ "\n" := by
    intro row
    simp only [rowText, rowLine, String.append_assoc]
    rfl
  simp only [tableText, tableLines, List.isEmpty_iff, census_eq_nil_iff]
  split
  · rfl
  · rw [Text.unlines_append, unlines_map hrow]
    rfl

theorem diagnosticText_eq (d : Diagnostic) : diagnosticText d = unlines (diagnosticLines d) := by
  rw [diagnosticLines, Text.unlines_append, Text.unlines_append, Text.unlines_piecesOf]
  simp only [diagnosticText, String.append_assoc, Text.unlines_cons]
  rfl

theorem diagnosticsText_eq (diagnostics : List Diagnostic) :
    diagnosticsText diagnostics = unlines (diagnosticsLines diagnostics) := by
  have hall : String.join (diagnostics.map diagnosticText) =
      unlines (diagnostics.flatMap diagnosticLines) := by
    induction diagnostics with
    | nil => rfl
    | cons d rest ih =>
        rw [List.map_cons, String.join_cons, List.flatMap_cons, Text.unlines_append, ← ih,
          diagnosticText_eq]
  rw [diagnosticsText, diagnosticsLines]
  split
  · rfl
  · rw [Text.unlines_append, hall]
    rfl

theorem unlines_headLines (count : Nat) :
    unlines (headLines count) =
      "# webidl2ts report\n\nConverted " ++ toString count ++
        " definitions.\n\n## Declarations\n\n" := by
  apply String.toList_injective
  simp only [headLines, Text.unlines_cons, String.toList_append, List.append_assoc]
  rfl

theorem render_eq (c : Converted) :
    render c =
      unlines (headLines c.items.length ++ tableLines (census c.declarations) ++ [""]) ++
        diagnosticsText c.diagnostics := by
  rw [Text.unlines_append, Text.unlines_append, ← tableText_eq, unlines_headLines]
  rfl

/-! ### Split again -/

theorem oneLine_repr (n : Nat) : OneLine (toString n) := by
  unfold OneLine
  rw [Nat.toString_eq_repr, Nat.toList_repr]
  intro h
  have hdigit : '\n'.isDigit = true := Nat.isDigit_of_mem_toDigits (by decide) (by decide) h
  exact absurd hdigit (by decide)

theorem oneLine_label (kind : DeclarationKind) : OneLine kind.label := by
  cases kind <;> decide

theorem oneLine_rowLine (row : DeclarationKind × Nat) : OneLine (rowLine row) :=
  ((((OneLine.append (by decide) (oneLine_label row.1)).append (by decide)).append
    (oneLine_repr row.2)).append (by decide))

theorem oneLine_headLines (count : Nat) : ∀ line ∈ headLines count, OneLine line := by
  have hcount : OneLine ("Converted " ++ toString count ++ " definitions.") :=
    (OneLine.append (by decide) (oneLine_repr count)).append (by decide)
  simp only [headLines, List.forall_mem_cons]
  exact ⟨by decide, by decide, hcount, by decide, by decide, by decide, List.forall_mem_nil _⟩

theorem oneLine_tableLines (rows : List (DeclarationKind × Nat)) :
    ∀ line ∈ tableLines rows, OneLine line := by
  unfold tableLines
  split
  · decide
  · rw [List.forall_mem_append]
    refine ⟨by decide, fun line hline => ?_⟩
    obtain ⟨row, -, rfl⟩ := List.mem_map.mp hline
    exact oneLine_rowLine row

/-- The heading and the table split into their lines. -/
theorem piecesOf_render (c : Converted) :
    piecesOf (render c) =
      headLines c.items.length ++ tableLines (census c.declarations) ++
        "" :: piecesOf (diagnosticsText c.diagnostics) := by
  have hlines : ∀ line ∈ headLines c.items.length ++ tableLines (census c.declarations) ++ [""],
      OneLine line := by
    simp only [List.forall_mem_append]
    exact ⟨⟨oneLine_headLines _, oneLine_tableLines _⟩, by decide⟩
  rw [render_eq, Text.piecesOf_unlines_append hlines, List.append_assoc, List.singleton_append]

end IdlTypings.Report
