import IdlTypings.Text.Lines

/-!
# A text and its pieces

The pieces of a text joined by line feeds are the text again. Whole lines in front of a text are its
first pieces, so a text that was written line by line splits into these lines.
-/

namespace IdlTypings.Text

/-- A line feed ends the first piece. -/
theorem pieces_append_lineFeed {line : List Char} (h : '\n' ∉ line) (rest : List Char) :
    pieces (line ++ '\n' :: rest) = line :: pieces rest := by
  induction line with
  | nil => rfl
  | cons c line ih =>
      obtain ⟨hc, hline⟩ := not_or.mp (mt List.mem_cons.mpr h)
      have hpieces := ih hline
      unfold pieces at hpieces
      obtain ⟨hfirst, hothers⟩ := List.cons.inj hpieces
      rw [List.cons_append, pieces, splitBreaks]
      simp only [if_neg (Ne.symm hc), hfirst, hothers]
      rfl

theorem pieces_lineFeed (rest : List Char) : pieces ('\n' :: rest) = [] :: pieces rest :=
  pieces_append_lineFeed List.not_mem_nil rest

theorem splitBreaks_cons_of_ne {c : Char} (h : c ≠ '\n') (rest : List Char) :
    splitBreaks (c :: rest) = (c :: (splitBreaks rest).1, (splitBreaks rest).2) := by
  rw [splitBreaks]
  simp only [if_neg h]

theorem pieces_cons_of_ne {c : Char} (h : c ≠ '\n') (rest : List Char) :
    pieces (c :: rest) = (c :: (splitBreaks rest).1) :: (splitBreaks rest).2 := by
  rw [pieces, splitBreaks_cons_of_ne h]

theorem intercalate_pieces (text : List Char) : ['\n'].intercalate (pieces text) = text := by
  induction text with
  | nil => rfl
  | cons c rest ih =>
      by_cases hc : c = '\n'
      · subst hc
        rw [pieces_lineFeed, pieces, List.intercalate_cons_cons, ← pieces, ih]
        rfl
      · rw [pieces_cons_of_ne hc]
        unfold pieces at ih
        conv => rhs; rw [← ih]
        cases (splitBreaks rest).2 with
        | nil => rw [List.intercalate_singleton, List.intercalate_singleton]
        | cons next more => rw [List.intercalate_cons_cons, List.intercalate_cons_cons]; rfl

theorem lineFeed_notMem_of_mem_pieces {text piece : List Char} (h : piece ∈ pieces text) :
    '\n' ∉ piece := by
  induction text generalizing piece with
  | nil =>
      rw [List.mem_singleton.mp h]
      exact List.not_mem_nil
  | cons c rest ih =>
      by_cases hc : c = '\n'
      · rw [hc, pieces_lineFeed] at h
        obtain rfl | hrest := List.mem_cons.mp h
        · exact List.not_mem_nil
        · exact ih hrest
      · rw [pieces_cons_of_ne hc] at h
        obtain rfl | hothers := List.mem_cons.mp h
        · rw [List.mem_cons, not_or]
          exact ⟨Ne.symm hc, ih (.head _)⟩
        · exact ih (.tail _ hothers)

theorem mem_of_mem_pieces {text piece : List Char} {c : Char} (h : piece ∈ pieces text)
    (hc : c ∈ piece) : c ∈ text := by
  induction text generalizing piece with
  | nil =>
      rw [List.mem_singleton.mp h] at hc
      cases hc
  | cons first rest ih =>
      by_cases hfirst : first = '\n'
      · rw [hfirst, pieces_lineFeed] at h
        obtain rfl | hrest := List.mem_cons.mp h
        · cases hc
        · exact .tail _ (ih hrest hc)
      · rw [pieces_cons_of_ne hfirst] at h
        obtain rfl | hothers := List.mem_cons.mp h
        · obtain rfl | hc := List.mem_cons.mp hc
          · exact .head _
          · exact .tail _ (ih (.head _) hc)
        · exact .tail _ (ih (.tail _ hothers) hc)

/-- The last piece is empty only behind a line feed. -/
theorem getLastD_pieces_ne_nil {text : List Char} {c : Char} (h : text.getLast? = some c)
    (hc : c ≠ '\n') : (pieces text).getLastD [] ≠ [] := by
  induction text with
  | nil => cases h
  | cons first rest ih =>
      by_cases hrest : rest = []
      · subst hrest
        obtain rfl : first = c := Option.some_inj.mp h
        rw [pieces_cons_of_ne hc]
        exact List.cons_ne_nil _ _
      · have hlast : (pieces rest).getLastD [] ≠ [] := by
          apply ih
          rw [← h, List.getLast?_cons_of_ne_nil hrest]
        by_cases hfirst : first = '\n'
        · rw [hfirst, pieces_lineFeed]
          exact hlast
        · rw [pieces_cons_of_ne hfirst]
          unfold pieces at hlast
          cases hothers : (splitBreaks rest).2 with
          | nil => exact List.cons_ne_nil _ _
          | cons next more =>
              rw [hothers] at hlast
              exact hlast

/-- Without carriage returns, and with something on its last line, a text has its pieces as
lines. -/
theorem lines_eq_pieces {text : List Char} {c : Char} (hreturn : '\r' ∉ text)
    (hlast : text.getLast? = some c) (hc : c ≠ '\n') : lines text = pieces text := by
  have hdrop : (pieces text).dropLast.map dropReturn = (pieces text).dropLast := by
    refine (List.map_congr_left fun piece hpiece => ?_).trans (List.map_id _)
    have hnone : piece.getLast? ≠ some '\r' := fun h =>
      hreturn (mem_of_mem_pieces (List.dropLast_subset _ hpiece) (List.mem_of_getLast? h))
    rw [dropReturn, if_neg hnone, id]
  have hsome : ((pieces text).getLastD []).isEmpty = false :=
    List.isEmpty_eq_false_iff.mpr (getLastD_pieces_ne_nil hlast hc)
  rw [lines, hdrop]
  simp only [hsome, Bool.false_eq_true, if_false]
  have hpieces : pieces text ≠ [] := List.cons_ne_nil _ _
  rw [List.getLastD_eq_getLast?, List.getLast?_eq_some_getLast hpieces]
  exact List.dropLast_concat_getLast hpieces

/-! ### Strings -/

/-- The pieces of a text between its line feeds. -/
def piecesOf (text : String) : List String := (pieces text.toList).map String.ofList

/-- Lines one after the other, each with a line feed behind it. -/
def unlines (lines : List String) : String := String.join (lines.map (· ++ "\n"))

theorem lineFeed_notMem_of_mem_piecesOf {text piece : String} (h : piece ∈ piecesOf text) :
    '\n' ∉ piece.toList := by
  obtain ⟨chars, hchars, rfl⟩ := List.mem_map.mp h
  rw [String.toList_ofList]
  exact lineFeed_notMem_of_mem_pieces hchars

theorem intercalate_piecesOf (text : String) : "\n".intercalate (piecesOf text) = text := by
  have hstrings : (piecesOf text).map String.toList = pieces text.toList := by
    rw [piecesOf, List.map_map]
    exact (List.map_congr_left fun piece _ => String.toList_ofList).trans (List.map_id _)
  apply String.toList_injective
  rw [String.toList_intercalate, hstrings]
  exact intercalate_pieces text.toList

theorem unlines_cons (line : String) (lines : List String) :
    unlines (line :: lines) = line ++ "\n" ++ unlines lines := by
  rw [unlines, List.map_cons, String.join_cons]
  rfl

theorem unlines_append (lines more : List String) :
    unlines (lines ++ more) = unlines lines ++ unlines more := by
  rw [unlines, List.map_append, String.join_append]
  rfl

theorem unlines_eq_intercalate_append {lines : List String} (h : lines ≠ []) :
    unlines lines = "\n".intercalate lines ++ "\n" := by
  induction lines with
  | nil => exact absurd rfl h
  | cons line rest ih =>
      cases rest with
      | nil =>
          rw [unlines_cons, String.intercalate_singleton]
          exact String.append_empty
      | cons next more =>
          rw [unlines_cons, ih (List.cons_ne_nil _ _), String.intercalate_cons_cons]
          simp only [String.append_assoc]

/-- A text with a line feed behind it, written line by line. -/
theorem unlines_piecesOf (text : String) : unlines (piecesOf text) = text ++ "\n" := by
  have hsome : piecesOf text ≠ [] := List.cons_ne_nil _ _
  rw [unlines_eq_intercalate_append hsome, intercalate_piecesOf]

/-- **A text that was written line by line splits into its lines.** -/
theorem piecesOf_unlines_append {lines : List String} (h : ∀ line ∈ lines, '\n' ∉ line.toList)
    (rest : String) : piecesOf (unlines lines ++ rest) = lines ++ piecesOf rest := by
  induction lines with
  | nil => exact congrArg piecesOf String.empty_append
  | cons line lines ih =>
      obtain ⟨hline, hlines⟩ := List.forall_mem_cons.mp h
      have hchars : (unlines (line :: lines) ++ rest).toList =
          line.toList ++ '\n' :: (unlines lines ++ rest).toList := by
        rw [unlines_cons]
        simp only [String.toList_append, List.append_assoc]
        rfl
      rw [piecesOf, hchars, pieces_append_lineFeed hline, List.map_cons, String.ofList_toList,
        List.cons_append, ← ih hlines]
      rfl

end IdlTypings.Text
