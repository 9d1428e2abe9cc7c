import IdlTypings.Proofs.Report.Fences
import IdlTypings.Warnings
import Mathlib.Data.List.Basic

/-!
# The listing of skipped constructs

Each warning is a line, and the lines of its dump follow under a mark of their own. A reader that
knows nothing but the two marks finds each message again with the lines of its dump.
-/

namespace IdlTypings.Warnings

open Conversion (ShowsDump)
open Text (piecesOf unlines)
open Ts (OneLine)

/-- The lines of a dump as the listing shows them. -/
def linesOf (dump : String) : List String := (Text.lines dump.toList).map String.ofList

def warningLines (d : Diagnostic) : List String :=
  ("warning: " ++ d.text) :: (linesOf d.dump).map ("  | " ++ ·)

/-- The rest of a line that begins with this mark. -/
def behind? (mark line : String) : Option String :=
  if mark.toList.isPrefixOf line.toList then
    some (String.ofList (line.toList.drop mark.toList.length))
  else none

/-- The lines of a dump that a listing goes on with, without their mark. -/
def dumpBelow : List String → List String
  | [] => []
  | line :: rest =>
      match behind? "  | " line with
      | some shown => shown :: dumpBelow rest
      | none => []

/-- The messages of a listing, each with the lines of the dump right below it. -/
def listed : List String → List (String × List String)
  | [] => []
  | line :: rest =>
      match behind? "warning: " line with
      | some message => (message, dumpBelow rest) :: listed rest
      | none => listed rest

/-! ### Marks -/

theorem behind?_append (mark line : String) : behind? mark (mark ++ line) = some line := by
  have hprefix : mark.toList.isPrefixOf (mark ++ line).toList = true := by
    rw [List.isPrefixOf_iff_prefix, String.toList_append]
    exact List.prefix_append _ _
  rw [behind?, if_pos hprefix, String.toList_append, List.drop_left, String.ofList_toList]

theorem behind?_eq_none {mark line : String} {c : Char} (hmark : mark.toList.head? = some c)
    (hline : line.toList.head? ≠ some c) : behind? mark line = none := by
  rw [behind?, if_neg]
  intro hprefix
  obtain ⟨rest, hrest⟩ := List.isPrefixOf_iff_prefix.mp hprefix
  apply hline
  rw [← hrest, List.head?_append, hmark, Option.some_or]

theorem behind?_warning_dump (line : String) : behind? "warning: " ("  | " ++ line) = none := by
  apply behind?_eq_none (c := 'w') rfl
  rw [String.toList_append]
  exact nofun

theorem behind?_dump_warning (line : String) : behind? "  | " ("warning: " ++ line) = none := by
  apply behind?_eq_none (c := ' ') rfl
  rw [String.toList_append]
  exact nofun

/-! ### What a reader finds -/

section Reader

variable {d : Diagnostic} {diagnostics : List Diagnostic} {tail : List String}

theorem dumpBelow_append (shown rest : List String) :
    dumpBelow (shown.map ("  | " ++ ·) ++ rest) = shown ++ dumpBelow rest := by
  induction shown with
  | nil => rfl
  | cons line shown ih =>
      rw [List.map_cons, List.cons_append, dumpBelow, behind?_append]
      exact congrArg (line :: ·) ih

theorem listed_append (shown rest : List String) :
    listed (shown.map ("  | " ++ ·) ++ rest) = listed rest := by
  induction shown with
  | nil => rfl
  | cons line shown ih =>
      rw [List.map_cons, List.cons_append, listed, behind?_warning_dump]
      exact ih

theorem dumpBelow_warningLines (h : dumpBelow tail = []) :
    dumpBelow (diagnostics.flatMap warningLines ++ tail) = [] := by
  cases diagnostics with
  | nil => exact h
  | cons d rest =>
      rw [List.flatMap_cons, warningLines, List.cons_append, List.cons_append, dumpBelow,
        behind?_dump_warning]

theorem listed_warningLines (hbelow : dumpBelow tail = []) (htail : listed tail = []) :
    listed (diagnostics.flatMap warningLines ++ tail) =
      diagnostics.map fun d => (d.text, linesOf d.dump) := by
  induction diagnostics with
  | nil => exact htail
  | cons d rest ih =>
      rw [List.flatMap_cons, List.append_assoc, warningLines, List.cons_append, listed,
        behind?_append]
      simp only [dumpBelow_append, listed_append, dumpBelow_warningLines hbelow, ih,
        List.append_nil, List.map_cons]

end Reader

/-! ### The lines of a listing -/

theorem linesOf_eq_piecesOf {d : Diagnostic} (h : ShowsDump d) :
    linesOf d.dump = piecesOf d.dump := by
  obtain ⟨raw, hraw⟩ := h
  rw [linesOf, hraw, Json.lines_dump]
  rfl

theorem warningText_plain (d : Diagnostic) :
    warningText plain true d = unlines (warningLines d) := by
  have hdump : dumpText d = unlines ((linesOf d.dump).map ("  | " ++ ·)) := by
    rw [dumpText, linesOf, List.map_map]
    exact Report.unlines_map (fun _ => rfl) _
  rw [warningLines, Text.unlines_cons, ← hdump]
  apply String.toList_injective
  simp only [warningText, if_true, String.toList_append, List.append_assoc]
  rfl

theorem render_plain (diagnostics : List Diagnostic) :
    render plain true diagnostics =
      unlines (diagnostics.flatMap warningLines) ++ summary diagnostics.length := by
  have hall : String.join (diagnostics.map (warningText plain true)) =
      unlines (diagnostics.flatMap warningLines) := by
    induction diagnostics with
    | nil => rfl
    | cons d rest ih =>
        rw [List.map_cons, String.join_cons, List.flatMap_cons, Text.unlines_append, ← ih,
          warningText_plain]
  rw [render, hall]

theorem oneLine_warningLines {d : Diagnostic} (htext : OneLine d.text) (hdump : ShowsDump d) :
    ∀ line ∈ warningLines d, OneLine line := by
  rw [warningLines, List.forall_mem_cons, linesOf_eq_piecesOf hdump]
  refine ⟨.append (by decide) htext, fun line hline => ?_⟩
  obtain ⟨piece, hpiece, rfl⟩ := List.mem_map.mp hline
  exact .append (by decide) (Text.lineFeed_notMem_of_mem_piecesOf hpiece)

/-- The line with the number of warnings. -/
def summaryLine (count : Nat) : String :=
  toString count ++ " unsupported construct" ++ (if count = 1 then "" else "s") ++ " skipped"

theorem head?_summaryLine {count : Nat} {c : Char} (h : c.isDigit = false) :
    (summaryLine count).toList.head? ≠ some c := by
  obtain ⟨first, digits, hdigits⟩ :=
    List.exists_cons_of_ne_nil (Nat.toDigits_ne_nil (n := count) (b := 10))
  have hfirst : first ∈ Nat.toDigits 10 count := hdigits ▸ List.mem_cons_self
  have hdigit : first.isDigit = true := Nat.isDigit_of_mem_toDigits (by decide) (by decide) hfirst
  simp only [summaryLine, String.toList_append, Nat.toString_eq_repr, Nat.toList_repr, hdigits,
    List.cons_append, List.head?_cons]
  rintro ⟨⟩
  rw [h] at hdigit
  cases hdigit

theorem piecesOf_summary {count : Nat} (h : count ≠ 0) :
    piecesOf (summary count) = [summaryLine count, ""] := by
  have hline : OneLine (summaryLine count) := by
    have hplural : OneLine (if count = 1 then "" else "s") := by
      split <;> decide
    exact (((Report.oneLine_repr count).append (by decide)).append hplural).append (by decide)
  have htext : summary count = unlines [summaryLine count] ++ "" := by
    rw [summary, if_neg h, Text.unlines_cons, summaryLine]
    apply String.toList_injective
    simp only [String.toList_append, List.append_assoc]
    rfl
  rw [htext, Text.piecesOf_unlines_append (List.forall_mem_singleton.mpr hline)]
  rfl

/-- The number of warnings is no warning, and no line of a dump. -/
theorem listed_summary (count : Nat) :
    dumpBelow (piecesOf (summary count)) = [] ∧ listed (piecesOf (summary count)) = [] := by
  by_cases hcount : count = 0
  · subst hcount
    exact ⟨by decide, by decide⟩
  · have hwarning : behind? "warning: " (summaryLine count) = none :=
      behind?_eq_none (c := 'w') rfl (head?_summaryLine rfl)
    have hdump : behind? "  | " (summaryLine count) = none :=
      behind?_eq_none (c := ' ') rfl (head?_summaryLine rfl)
    have hend : listed [""] = [] := by decide
    rw [piecesOf_summary hcount, dumpBelow, listed, hwarning, hdump]
    exact ⟨rfl, hend⟩

/-- **In a listing the dumps stand below their warnings**, line by line. -/
theorem listed_render {diagnostics : List Diagnostic} (htext : ∀ d ∈ diagnostics, OneLine d.text)
    (hdump : ∀ d ∈ diagnostics, ShowsDump d) :
    listed (piecesOf (render plain true diagnostics)) =
      diagnostics.map fun d => (d.text, linesOf d.dump) := by
  have hlines : ∀ line ∈ diagnostics.flatMap warningLines, OneLine line := by
    intro line hline
    obtain ⟨d, hd, hline⟩ := List.mem_flatMap.mp hline
    exact oneLine_warningLines (htext d hd) (hdump d hd) line hline
  obtain ⟨hbelow, hlisted⟩ := listed_summary diagnostics.length
  calc listed (piecesOf (render plain true diagnostics))
      = listed (diagnostics.flatMap warningLines ++ piecesOf (summary diagnostics.length)) := by
        rw [render_plain, Text.piecesOf_unlines_append hlines]
    _ = diagnostics.map fun d => (d.text, linesOf d.dump) := listed_warningLines hbelow hlisted

end IdlTypings.Warnings

/-! ### Both renderings of a conversion -/

namespace IdlTypings.Conversion

open Report (isFence fencedTexts openingFence closingFence)
open Text (piecesOf)
open Ts (OneLine)
open Warnings (listed linesOf plain)

/-- The messages and the dumps of a conversion. -/
def shown (c : Converted) : List (String × String) := c.diagnostics.map fun d => (d.text, d.dump)

theorem oneLine_text {d : Diagnostic} (h : ∀ owner ∈ d.owner, OneLine owner) : OneLine d.text := by
  have hmessage : OneLine d.construct.message := by
    cases d.construct <;> decide
  unfold Diagnostic.text
  split
  · rename_i owner howner
    exact ((hmessage.append (by decide)).append (h owner howner)).append (by decide)
  · exact hmessage

section Delimited

variable {mode mode' : Mode} {roots roots' : List Idl.Root}

/-- The owners of diagnostics are names on one line. -/
def HasPlainOwners (c : Converted) : Prop :=
  ∀ d ∈ c.diagnostics, ∀ owner ∈ d.owner, OneLine owner

theorem fencedTexts_report (h : HasPlainOwners (convert mode roots)) :
    fencedTexts (.outside "") (piecesOf (Report.render (convert mode roots))) =
      (convert mode roots).diagnostics.map fun d => ("- " ++ d.text, d.dump) :=
  Report.fencedTexts_render (fun d hd => oneLine_text (h d hd))
    fun _ => showsDump_of_mem_diagnostics

theorem listed_warnings (h : HasPlainOwners (convert mode roots)) :
    listed (piecesOf (Warnings.render plain true (convert mode roots).diagnostics)) =
      (convert mode roots).diagnostics.map fun d => (d.text, linesOf d.dump) :=
  Warnings.listed_render (fun d hd => oneLine_text (h d hd)) fun _ => showsDump_of_mem_diagnostics

theorem intercalate_linesOf {d : Diagnostic} (h : d ∈ (convert mode roots).diagnostics) :
    "\n".intercalate (linesOf d.dump) = d.dump := by
  rw [Warnings.linesOf_eq_piecesOf (showsDump_of_mem_diagnostics h), Text.intercalate_piecesOf]

theorem shown_eq_of_report_eq (h : HasPlainOwners (convert mode roots))
    (h' : HasPlainOwners (convert mode' roots'))
    (hreport : Report.render (convert mode roots) = Report.render (convert mode' roots')) :
    shown (convert mode roots) = shown (convert mode' roots') := by
  have hfound := calc
    (convert mode roots).diagnostics.map (fun d => ("- " ++ d.text, d.dump))
      = fencedTexts (.outside "") (piecesOf (Report.render (convert mode roots))) :=
        (fencedTexts_report h).symm
    _ = fencedTexts (.outside "") (piecesOf (Report.render (convert mode' roots'))) := by
        rw [hreport]
    _ = (convert mode' roots').diagnostics.map (fun d => ("- " ++ d.text, d.dump)) :=
        fencedTexts_report h'
  have hinjective : Function.Injective fun p : String × String => ("- " ++ p.1, p.2) := by
    intro p q hpq
    obtain ⟨hmessage, hdump⟩ := Prod.mk.inj hpq
    exact Prod.ext (String.append_right_inj _ |>.mp hmessage) hdump
  apply List.map_injective_iff.mpr hinjective
  rw [shown, shown, List.map_map, List.map_map]
  exact hfound

theorem shown_eq_of_listing_eq (h : HasPlainOwners (convert mode roots))
    (h' : HasPlainOwners (convert mode' roots'))
    (hlisting : Warnings.render plain true (convert mode roots).diagnostics =
      Warnings.render plain true (convert mode' roots').diagnostics) :
    shown (convert mode roots) = shown (convert mode' roots') := by
  have hjoin : ∀ {mode roots}, shown (convert mode roots) =
      ((convert mode roots).diagnostics.map fun d => (d.text, linesOf d.dump)).map
        fun p => (p.1, "\n".intercalate p.2) := by
    intro mode roots
    rw [shown, List.map_map]
    refine List.map_congr_left fun d hd => ?_
    rw [Function.comp_apply, intercalate_linesOf hd]
  rw [hjoin, hjoin, ← listed_warnings h, hlisting, listed_warnings h']

end Delimited

/-- **Dumps stay delimited.** The fences of a report are an opening and a closing one for each
diagnostic, and between them stands its dump. In a listing the lines of the dump follow each
warning, and joined they are the dump. So a report, and a listing, tells what was skipped. -/
theorem dumps_delimited (mode : Mode) (roots : List Idl.Root)
    (h : HasPlainOwners (convert mode roots)) :
    (piecesOf (Report.render (convert mode roots))).filter isFence =
        (convert mode roots).diagnostics.flatMap (fun _ => [openingFence, closingFence]) ∧
      fencedTexts (.outside "") (piecesOf (Report.render (convert mode roots))) =
        (convert mode roots).diagnostics.map (fun d => ("- " ++ d.text, d.dump)) ∧
      listed (piecesOf (Warnings.render plain true (convert mode roots).diagnostics)) =
        (convert mode roots).diagnostics.map (fun d => (d.text, linesOf d.dump)) ∧
      (∀ d ∈ (convert mode roots).diagnostics, "\n".intercalate (linesOf d.dump) = d.dump) ∧
      ∀ (mode' : Mode) (roots' : List Idl.Root), HasPlainOwners (convert mode' roots') →
        (Report.render (convert mode roots) = Report.render (convert mode' roots') ∨
          Warnings.render plain true (convert mode roots).diagnostics =
            Warnings.render plain true (convert mode' roots').diagnostics) →
        shown (convert mode roots) = shown (convert mode' roots') := by
  have htext : ∀ d ∈ (convert mode roots).diagnostics, OneLine d.text :=
    fun d hd => oneLine_text (h d hd)
  refine ⟨?_, fencedTexts_report h, listed_warnings h, fun d => intercalate_linesOf, ?_⟩
  · exact Report.filter_isFence_render htext fun _ => showsDump_of_mem_diagnostics
  · rintro mode' roots' h' (hreport | hlisting)
    · exact shown_eq_of_report_eq h h' hreport
    · exact shown_eq_of_listing_eq h h' hlisting

/-- A node with fences and marks in its texts, which stay inside the lines of its dump. -/
def fencedNode : Json.Value :=
  .object [("```", .string "\n```\n\n```json\n"), ("warning: ", .array [.string "  | ", .null])]

/-- A program that skips this node as a type and as a definition. -/
def fencedProgram : List Idl.Root :=
  [.callback "Fenced" (.unsupported fencedNode) [], .unsupported "```" fencedNode]

theorem dumps_delimited_fencedProgram :
    HasPlainOwners (convert .ambient fencedProgram) ∧
      (piecesOf (Report.render (convert .ambient fencedProgram))).filter isFence =
        ["```json", "```", "```json", "```"] ∧
      fencedTexts (.outside "") (piecesOf (Report.render (convert .ambient fencedProgram))) =
        [("- Unsupported IDL type in `Fenced`", fencedNode.dump),
          ("- Unsupported IDL type", fencedNode.dump)] ∧
      listed (piecesOf (Warnings.render plain true (convert .ambient fencedProgram).diagnostics)) =
        [("Unsupported IDL type in `Fenced`", linesOf fencedNode.dump),
          ("Unsupported IDL type", linesOf fencedNode.dump)] ∧
      shown (convert .ambient fencedProgram) = shown (convert .runtime fencedProgram) := by
  have howners : ∀ mode, HasPlainOwners (convert mode fencedProgram) := by
    intro mode
    change ∀ d ∈ [Diagnostic.mk .type (some "Fenced") fencedNode.dump,
      ⟨.definition, none, fencedNode.dump⟩], ∀ owner ∈ d.owner, OneLine owner
    simp only [List.forall_mem_cons]
    exact ⟨by decide, nofun, nofun⟩
  obtain ⟨hfences, htexts, hlisted, -, hshown⟩ :=
    dumps_delimited .ambient fencedProgram (howners _)
  refine ⟨howners _, hfences, htexts, hlisted, ?_⟩
  exact hshown .runtime fencedProgram (howners _) (.inl rfl)

end IdlTypings.Conversion
