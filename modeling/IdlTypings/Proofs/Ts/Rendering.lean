import IdlTypings.Proofs.Text.Lines
import IdlTypings.Proofs.Ts.OneLine

/-!
# Rendered lines

Lines are written one after the other, each with a line feed behind it. If the contents have no line
feeds, the text splits at its line feeds into these lines again.
-/

namespace IdlTypings.Ts

/-- A line without the line feed at its end. -/
def Line.written (indent : String) : Line → String
  | .blank => ""
  | .content depth text => String.join (List.replicate depth indent) ++ text

def Line.Says (P : String → Prop) : Line → Prop
  | .blank => True
  | .content _ text => P text

/-- A content is not empty and has no line feed. -/
def Line.IsProper : Line → Prop :=
  Line.Says fun text => text ≠ "" ∧ OneLine text

theorem Line.render_eq (indent : String) (line : Line) :
    line.render indent = line.written indent ++ "\n" := by
  cases line with
  | blank => rfl
  | content depth text => rfl

section Render

variable (indent : String)

theorem renderLines_nil : renderLines indent [] = "" := rfl

theorem renderLines_cons (line : Line) (lines : List Line) :
    renderLines indent (line :: lines) = line.written indent ++ "\n" ++ renderLines indent lines := by
  rw [renderLines, List.map_cons, String.join_cons, line.render_eq]
  rfl

theorem renderLines_append (lines more : List Line) :
    renderLines indent (lines ++ more) = renderLines indent lines ++ renderLines indent more := by
  rw [renderLines, List.map_append, String.join_append]
  rfl

/-- Behind the last line feed there is nothing. -/
theorem renderLines_eq_intercalate (lines : List Line) :
    renderLines indent lines = "\n".intercalate (lines.map (Line.written indent) ++ [""]) := by
  induction lines with
  | nil => rfl
  | cons line lines ih =>
      rw [renderLines_cons, ih, List.map_cons, List.cons_append]
      cases lines with
      | nil => rw [List.map_nil, List.nil_append, String.intercalate_cons_cons]
      | cons next more => rw [List.map_cons, List.cons_append, String.intercalate_cons_cons]

end Render

theorem oneLine_indent (options : PrintOptions) : OneLine options.indent := by
  unfold OneLine PrintOptions.indent
  split
  · decide
  · rw [String.toList_ofList]
    intro h
    exact absurd (List.eq_of_mem_replicate h) (by decide)

theorem oneLine_replicate {indent : String} (h : OneLine indent) (depth : Nat) :
    OneLine (String.join (List.replicate depth indent)) := by
  induction depth with
  | zero =>
      rw [List.replicate_zero, String.join_nil]
      decide
  | succ depth ih =>
      rw [List.replicate_succ, String.join_cons]
      exact h.append ih

theorem oneLine_written {indent : String} (hindent : OneLine indent) {line : Line}
    (h : line.IsProper) : OneLine (line.written indent) := by
  cases line with
  | blank =>
      rw [Line.written]
      decide
  | content depth text => exact (oneLine_replicate hindent depth).append h.2

/-- **The lines of the text are the lines that were rendered.** The text ends behind the line feed of
the last one. -/
theorem pieces_renderLines {indent : String} (hindent : OneLine indent) {lines : List Line}
    (h : ∀ line ∈ lines, line.IsProper) :
    Text.pieces (renderLines indent lines).toList =
      lines.map (fun line => (line.written indent).toList) ++ [[]] := by
  induction lines with
  | nil => rfl
  | cons line lines ih =>
      obtain ⟨hline, hlines⟩ := List.forall_mem_cons.mp h
      have hwritten : OneLine (line.written indent) := oneLine_written hindent hline
      have hfeed : "\n".toList = ['\n'] := rfl
      rw [renderLines_cons, String.toList_append, String.toList_append, List.append_assoc, hfeed,
        List.singleton_append, Text.pieces_append_lineFeed hwritten, ih hlines]
      rfl

/-! ### The header -/

/-- What the options put in front: a line, and a blank one if there is more to come. -/
def headerPart (options : PrintOptions) (declarations : List Declaration) : String :=
  if options.header then headerText ++ "\n" ++ (if declarations.isEmpty then "" else "\n") else ""

theorem print_eq_headerPart_append (options : PrintOptions) (declarations : List Declaration) :
    print options declarations =
      headerPart options declarations ++
        renderLines options.indent (Declaration.listLines false 0 declarations) := by
  have hheader : renderLines options.indent (headerLines declarations) =
      headerText ++ "\n" ++ (if declarations.isEmpty then "" else "\n") := by
    rw [headerLines, renderLines_cons, Line.written, List.replicate_zero, String.join_nil,
      String.empty_append]
    split <;> rfl
  rw [print, renderLines_append, headerPart]
  split
  · rw [hheader]
  · rw [renderLines_nil]

theorem print_of_no_header {options : PrintOptions} (h : options.header = false)
    (declarations : List Declaration) :
    print options declarations =
      renderLines options.indent (Declaration.listLines false 0 declarations) := by
  rw [print_eq_headerPart_append, headerPart, h]
  exact String.empty_append

end IdlTypings.Ts
