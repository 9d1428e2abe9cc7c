import IdlTypings.Proofs.Conversion.Skipped
import IdlTypings.Proofs.Json.DumpLines
import IdlTypings.Proofs.Report.Lines

/-!
# Fences

Which lines of a report are fences, and what stands between them. No line of a dump is a fence, so a
reader that knows nothing but fences finds each dump again, under the bullet of its diagnostic.
-/

namespace IdlTypings.Conversion

/-- What a diagnostic shows is the dump of some value. -/
def ShowsDump (d : Diagnostic) : Prop := ∃ raw : Json.Value, d.dump = raw.dump

theorem showsDump_of_mem_skippedTypes {owner : String} {types : List Idl.TypeExpr}
    {d : Diagnostic} (h : d ∈ skippedTypes owner types) : ShowsDump d := by
  obtain ⟨raw, -, rfl⟩ := List.mem_map.mp h
  exact ⟨raw, rfl⟩

theorem showsDump_of_mem_diagnostics {mode : Mode} {roots : List Idl.Root} {d : Diagnostic}
    (h : d ∈ (convert mode roots).diagnostics) : ShowsDump d := by
  simp only [diagnostics_convert, notes_item, List.mem_flatMap] at h
  obtain ⟨root, -, hd⟩ := h
  cases root with
  | definition kind definition =>
      obtain ⟨m, -, hd⟩ := List.mem_flatMap.mp hd
      cases m with
      | unsupported kind raw =>
          rw [List.mem_singleton.mp hd]
          exact ⟨raw, rfl⟩
      | _ => exact showsDump_of_mem_skippedTypes hd
  | includes target mixin => cases hd
  | enumeration name values => cases hd
  | callback name returns arguments => exact showsDump_of_mem_skippedTypes hd
  | typedef name type => exact showsDump_of_mem_skippedTypes hd
  | unsupported kind raw =>
      rw [List.mem_singleton.mp hd]
      exact ⟨raw, rfl⟩

end IdlTypings.Conversion

namespace IdlTypings.Report

open Conversion (ShowsDump)
open Text (piecesOf)
open Ts (OneLine)

/-- Three backticks behind the blanks of a line. -/
def isFence (line : String) : Bool :=
  ['`', '`', '`'].isPrefixOf (Json.content line.toList)

/-- Where a reader of a report is: outside under a line that is not empty, or behind a fence under
that line, with the lines since the fence. -/
inductive Place where
  | outside (title : String)
  | fenced (title : String) (body : List String)

/-- The texts between two fences, each with the last line above that is not empty. -/
def fencedTexts : Place → List String → List (String × String)
  | _, [] => []
  | .outside title, line :: rest =>
      if isFence line then fencedTexts (.fenced title []) rest
      else if line = "" then fencedTexts (.outside title) rest
      else fencedTexts (.outside line) rest
  | .fenced title body, line :: rest =>
      if isFence line then (title, "\n".intercalate body) :: fencedTexts (.outside title) rest
      else fencedTexts (.fenced title (body ++ [line])) rest

/-! ### Lines that are no fences -/

theorem isFence_eq_false {line : String} (h : (Json.content line.toList).head? ≠ some '`') :
    isFence line = false := by
  unfold isFence
  cases hcontent : Json.content line.toList with
  | nil => rfl
  | cons c rest =>
      rw [hcontent, List.head?_cons] at h
      have hc : ('`' == c) = false := beq_eq_false_iff_ne.mpr fun hc => h (congrArg some hc.symm)
      rw [List.isPrefixOf_cons_cons, hc, Bool.false_and]

theorem isFence_of_head? {line : String} {c : Char} (h : line.toList.head? = some c)
    (hblank : c ≠ ' ') (hc : c ≠ '`') : isFence line = false := by
  apply isFence_eq_false
  obtain ⟨rest, hline⟩ := List.head?_eq_some_iff.mp h
  rw [hline, Json.content_cons_of_ne hblank, List.head?_cons]
  exact mt Option.some_inj.mp hc

theorem isFence_of_mem_dump {v : Json.Value} {line : String} (h : line ∈ piecesOf v.dump) :
    isFence line = false := by
  obtain ⟨chars, hchars, rfl⟩ := List.mem_map.mp h
  apply isFence_eq_false
  rw [String.toList_ofList]
  exact Json.head?_content_ne_of_mem_dump hchars

theorem isFence_bullet (text : String) : isFence ("- " ++ text) = false := by
  apply isFence_of_head? (c := '-') ?_ (by decide) (by decide)
  rw [String.toList_append]
  rfl

theorem isFence_of_mem_headLines {count : Nat} :
    ∀ line ∈ headLines count, isFence line = false := by
  have hcount : isFence ("Converted " ++ toString count ++ " definitions.") = false := by
    apply isFence_of_head? (c := 'C') ?_ (by decide) (by decide)
    rw [String.toList_append, String.toList_append]
    rfl
  simp only [headLines, List.forall_mem_cons]
  exact ⟨by decide, by decide, hcount, by decide, by decide, by decide, List.forall_mem_nil _⟩

theorem isFence_of_mem_tableLines {rows : List (Ts.DeclarationKind × Nat)} :
    ∀ line ∈ tableLines rows, isFence line = false := by
  unfold tableLines
  split
  · decide
  · rw [List.forall_mem_append]
    refine ⟨by decide, fun line hline => ?_⟩
    obtain ⟨row, -, rfl⟩ := List.mem_map.mp hline
    apply isFence_of_head? (c := '|') ?_ (by decide) (by decide)
    simp only [rowLine, String.toList_append]
    rfl

/-! ### The lines of a report -/

/-- What stands above the first diagnostic. -/
def summaryLines (c : Converted) : List String :=
  headLines c.items.length ++ tableLines (census c.declarations) ++ [""] ++
    if c.diagnostics.isEmpty then ["No diagnostics."] else ["## Diagnostics", ""]

theorem isFence_of_mem_summaryLines {c : Converted} :
    ∀ line ∈ summaryLines c, isFence line = false := by
  simp only [summaryLines, List.forall_mem_append]
  refine ⟨⟨⟨isFence_of_mem_headLines, isFence_of_mem_tableLines⟩, by decide⟩, ?_⟩
  split <;> decide

theorem diagnosticsLines_eq (diagnostics : List Diagnostic) :
    diagnosticsLines diagnostics =
      (if diagnostics.isEmpty then ["No diagnostics."] else ["## Diagnostics", ""]) ++
        diagnostics.flatMap diagnosticLines := by
  cases diagnostics <;> rfl

theorem oneLine_diagnosticLines {d : Diagnostic} (h : OneLine d.text) :
    ∀ line ∈ diagnosticLines d, OneLine line := by
  have hbullet : OneLine ("- " ++ d.text) := .append (by decide) h
  simp only [diagnosticLines, List.forall_mem_append, List.forall_mem_cons]
  exact ⟨⟨⟨hbullet, by decide, by decide, List.forall_mem_nil _⟩,
    fun _ => Text.lineFeed_notMem_of_mem_piecesOf⟩, by decide, by decide, List.forall_mem_nil _⟩

theorem oneLine_diagnosticsLines {diagnostics : List Diagnostic}
    (h : ∀ d ∈ diagnostics, OneLine d.text) :
    ∀ line ∈ diagnosticsLines diagnostics, OneLine line := by
  rw [diagnosticsLines_eq, List.forall_mem_append]
  constructor
  · split <;> decide
  · intro line hline
    obtain ⟨d, hd, hline⟩ := List.mem_flatMap.mp hline
    exact oneLine_diagnosticLines (h d hd) line hline

/-- A report splits into its lines, if each message is a line. -/
theorem piecesOf_render_of_oneLine {c : Converted} (h : ∀ d ∈ c.diagnostics, OneLine d.text) :
    piecesOf (render c) = summaryLines c ++ (c.diagnostics.flatMap diagnosticLines ++ [""]) := by
  have hsplit := Text.piecesOf_unlines_append (oneLine_diagnosticsLines h) ""
  rw [String.append_empty, ← diagnosticsText_eq, diagnosticsLines_eq] at hsplit
  rw [piecesOf_render, hsplit, summaryLines]
  simp only [List.append_assoc, List.cons_append, List.nil_append]
  rfl

/-! ### Each diagnostic has two fences -/

section Fences

variable {d : Diagnostic} {diagnostics : List Diagnostic}

theorem isFence_of_mem_shown (h : ShowsDump d) :
    ∀ line ∈ piecesOf d.dump, isFence line = false := by
  obtain ⟨raw, hraw⟩ := h
  intro line hline
  rw [hraw] at hline
  exact isFence_of_mem_dump hline

theorem filter_isFence_eq_nil {lines : List String} (h : ∀ line ∈ lines, isFence line = false) :
    lines.filter isFence = [] := by
  rw [List.filter_eq_nil_iff]
  intro line hline
  rw [h line hline]
  exact Bool.false_ne_true

theorem filter_isFence_diagnosticLines (h : ShowsDump d) :
    (diagnosticLines d).filter isFence = [openingFence, closingFence] := by
  have hbullet : ["- " ++ d.text].filter isFence = [] :=
    filter_isFence_eq_nil (List.forall_mem_singleton.mpr (isFence_bullet d.text))
  have hopening : ["", openingFence].filter isFence = [openingFence] := by decide
  have hclosing : [closingFence, ""].filter isFence = [closingFence] := by decide
  have hdump := filter_isFence_eq_nil (isFence_of_mem_shown h)
  rw [diagnosticLines, ← List.singleton_append (l := ["", openingFence])]
  simp only [List.filter_append, hbullet, hopening, hdump, hclosing]
  rfl

/-! ### What the reader finds -/

/-- The reader goes over lines that are no fences. -/
theorem fencedTexts_outside_append {lines : List String}
    (h : ∀ line ∈ lines, isFence line = false) (title : String) (rest : List String) :
    ∃ last, fencedTexts (.outside title) (lines ++ rest) = fencedTexts (.outside last) rest := by
  induction lines generalizing title with
  | nil => exact ⟨title, rfl⟩
  | cons line lines ih =>
      obtain ⟨hline, hlines⟩ := List.forall_mem_cons.mp h
      simp only [List.cons_append, fencedTexts, hline, Bool.false_eq_true, if_false]
      split
      · exact ih hlines title
      · exact ih hlines line

/-- Behind a fence all lines are kept, up to the next fence. -/
theorem fencedTexts_fenced_append {lines : List String}
    (h : ∀ line ∈ lines, isFence line = false) (title : String) (body rest : List String) :
    fencedTexts (.fenced title body) (lines ++ closingFence :: rest) =
      (title, "\n".intercalate (body ++ lines)) :: fencedTexts (.outside title) rest := by
  induction lines generalizing body with
  | nil =>
      have hclosing : isFence closingFence = true := by decide
      simp only [List.nil_append, fencedTexts, hclosing, if_true, List.append_nil]
  | cons line lines ih =>
      obtain ⟨hline, hlines⟩ := List.forall_mem_cons.mp h
      simp only [List.cons_append, fencedTexts, hline, Bool.false_eq_true, if_false]
      rw [ih hlines, List.append_assoc, List.singleton_append]

theorem fencedTexts_diagnosticLines (h : ShowsDump d) (title : String) (rest : List String) :
    fencedTexts (.outside title) (diagnosticLines d ++ rest) =
      ("- " ++ d.text, d.dump) :: fencedTexts (.outside ("- " ++ d.text)) rest := by
  have hempty : isFence "" = false := by decide
  have hopening : isFence openingFence = true := by decide
  have hsome : "- " ++ d.text ≠ "" := by
    intro h
    have hlength := congrArg String.length h
    rw [String.length_append] at hlength
    exact absurd hlength (Nat.ne_of_gt (Nat.lt_of_lt_of_le (by decide) (Nat.le_add_right _ _)))
  have hdump := fencedTexts_fenced_append (isFence_of_mem_shown h) ("- " ++ d.text) []
    ("" :: rest)
  rw [List.nil_append, Text.intercalate_piecesOf] at hdump
  simp only [diagnosticLines, List.append_assoc, List.cons_append, List.nil_append, fencedTexts,
    isFence_bullet, hempty, hopening, hsome, hdump, Bool.false_eq_true, if_false, if_true]

theorem fencedTexts_flatMap (h : ∀ d ∈ diagnostics, ShowsDump d) (title : String) :
    fencedTexts (.outside title) (diagnostics.flatMap diagnosticLines ++ [""]) =
      diagnostics.map fun d => ("- " ++ d.text, d.dump) := by
  induction diagnostics generalizing title with
  | nil => rfl
  | cons d rest ih =>
      obtain ⟨hd, hrest⟩ := List.forall_mem_cons.mp h
      rw [List.flatMap_cons, List.append_assoc, fencedTexts_diagnosticLines hd, ih hrest,
        List.map_cons]

end Fences

/-! ### The whole report -/

section Render

variable {c : Converted}

/-- The fences of a report are an opening and a closing one for each diagnostic. -/
theorem filter_isFence_render (htext : ∀ d ∈ c.diagnostics, OneLine d.text)
    (hdump : ∀ d ∈ c.diagnostics, ShowsDump d) :
    (piecesOf (render c)).filter isFence =
      c.diagnostics.flatMap fun _ => [openingFence, closingFence] := by
  have hend : [""].filter isFence = [] := by decide
  have heach : ∀ d ∈ c.diagnostics,
      (diagnosticLines d).filter isFence = [openingFence, closingFence] :=
    fun d hd => filter_isFence_diagnosticLines (hdump d hd)
  calc (piecesOf (render c)).filter isFence
      = (summaryLines c).filter isFence ++
          ((c.diagnostics.flatMap diagnosticLines).filter isFence ++ [""].filter isFence) := by
        rw [piecesOf_render_of_oneLine htext, List.filter_append, List.filter_append]
    _ = c.diagnostics.flatMap fun d => (diagnosticLines d).filter isFence := by
        rw [filter_isFence_eq_nil isFence_of_mem_summaryLines, hend, List.nil_append,
          List.append_nil, List.filter_flatMap]
    _ = c.diagnostics.flatMap fun _ => [openingFence, closingFence] := by
        rw [List.flatMap_def, List.map_congr_left heach, ← List.flatMap_def]

/-- **Between the fences of a report stand the dumps.** -/
theorem fencedTexts_render (htext : ∀ d ∈ c.diagnostics, OneLine d.text)
    (hdump : ∀ d ∈ c.diagnostics, ShowsDump d) :
    fencedTexts (.outside "") (piecesOf (render c)) =
      c.diagnostics.map fun d => ("- " ++ d.text, d.dump) := by
  rw [piecesOf_render_of_oneLine htext]
  obtain ⟨title, hsummary⟩ := fencedTexts_outside_append isFence_of_mem_summaryLines ""
    (c.diagnostics.flatMap diagnosticLines ++ [""])
  rw [hsummary, fencedTexts_flatMap hdump]

end Render

end IdlTypings.Report
