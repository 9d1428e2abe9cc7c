import IdlTypings.Proofs.Ts.DeclarationLines

/-!
# The layout of declaration files

The lines of declarations do not depend on the print options, which decide how a level is indented
and whether there is a header. Read from the top, the lines can be followed with a count of the
bodies that are open: a line that opens a body raises it, a closing line lowers it, and every line
stands at that depth. No content can pass for one that opens or closes a body, since what is not the
first line of a body ends in a semicolon or in both braces.
-/

namespace IdlTypings.Ts

/-! ### Lines that open and close bodies -/

def Opens (text : String) : Prop := [' ', '\x7b'] <:+ text.toList

instance : DecidablePred Opens := fun text =>
  inferInstanceAs (Decidable ([' ', '\x7b'] <:+ text.toList))

def Closes (text : String) : Prop := text = "\x7d"

instance : DecidablePred Closes := fun text => inferInstanceAs (Decidable (text = "\x7d"))

def Line.opens : Line → Bool
  | .blank => false
  | .content _ text => decide (Opens text)

def Line.closes : Line → Bool
  | .blank => false
  | .content _ text => decide (Closes text)

/-- How many of the lines open a body. -/
def openings (lines : List Line) : Nat := lines.countP Line.opens

/-- How many of the lines close a body. -/
def closings (lines : List Line) : Nat := lines.countP Line.closes

theorem getLast?_of_opens {text : String} (h : Opens text) :
    text.toList.getLast? = some '\x7b' := by
  obtain ⟨head, hhead⟩ := h
  rw [← hhead, List.getLast?_append]
  rfl

theorem opens_append (head : String) : Opens (head ++ " \x7b") := by
  unfold Opens
  rw [String.toList_append]
  exact List.suffix_append _ _

theorem not_closes_of_opens {text : String} (h : Opens text) : ¬ Closes text := by
  rintro rfl
  exact absurd (getLast?_of_opens h) (by decide)

/-- A line that leaves the number of open bodies as it is. -/
structure Stays (text : String) : Prop where
  not_opens : ¬ Opens text
  not_closes : ¬ Closes text

theorem stays_semicolon (text : String) : Stays (text ++ ";") := by
  have hlast : (text ++ ";").toList.getLast? = some ';' := by
    rw [String.toList_append, List.getLast?_append]
    rfl
  constructor
  · intro hopens
    rw [getLast?_of_opens hopens] at hlast
    exact absurd hlast (by decide)
  · intro hcloses
    rw [hcloses] at hlast
    exact absurd hlast (by decide)

theorem stays_emptyBody (head : String) : Stays (head ++ " \x7b\x7d") := by
  constructor
  · intro hopens
    have hlast : (head ++ " \x7b\x7d").toList.getLast? = some '\x7d' := by
      rw [String.toList_append, List.getLast?_append]
      rfl
    rw [getLast?_of_opens hopens] at hlast
    exact absurd hlast (by decide)
  · intro hcloses
    have hlength := congrArg (fun text => text.toList.length) hcloses
    simp only [String.toList_append, List.length_append] at hlength
    have hbraces : " \x7b\x7d".toList.length = 3 := rfl
    have hbrace : "\x7d".toList.length = 1 := rfl
    omega

theorem Member.stays_text (member : Member) : Stays member.text := by
  obtain ⟨head, hhead⟩ := member.exists_text_eq
  rw [hhead]
  exact stays_semicolon head

/-! ### Reading the lines from the top -/

/-- Where the next line stands: how many bodies are open, and whether the line before is blank. -/
structure Position where
  depth : Nat
  afterBlank : Bool

/-- What one line does. A blank line does not follow another one. -/
inductive Line.Takes : Position → Line → Position → Prop where
  | blank (depth : Nat) : Line.Takes ⟨depth, false⟩ .blank ⟨depth, true⟩
  | opening {text : String} (depth : Nat) (afterBlank : Bool) (h : Opens text) :
      Line.Takes ⟨depth, afterBlank⟩ (.content depth text) ⟨depth + 1, false⟩
  | closing {text : String} (depth : Nat) (afterBlank : Bool) (h : Closes text) :
      Line.Takes ⟨depth + 1, afterBlank⟩ (.content depth text) ⟨depth, false⟩
  | staying {text : String} (depth : Nat) (afterBlank : Bool) (h : Stays text) :
      Line.Takes ⟨depth, afterBlank⟩ (.content depth text) ⟨depth, false⟩

/-- The lines one after the other. -/
inductive Run : Position → List Line → Position → Prop where
  | nil (p : Position) : Run p [] p
  | cons {p q r : Position} {line : Line} {lines : List Line} (head : line.Takes p q)
      (tail : Run q lines r) : Run p (line :: lines) r

section Run

variable {p q r : Position} {line : Line} {lines more : List Line}

theorem Line.Takes.run (h : line.Takes p q) : Run p [line] q := .cons h (.nil q)

theorem Run.append (first : Run p lines q) (second : Run q more r) : Run p (lines ++ more) r := by
  induction first with
  | nil => exact second
  | cons head _ ih => exact .cons head (ih second)

theorem Run.split (h : Run p (lines ++ more) r) : ∃ q, Run p lines q ∧ Run q more r := by
  induction lines generalizing p with
  | nil => exact ⟨p, .nil p, h⟩
  | cons line lines ih =>
      cases h with
      | cons head tail =>
          obtain ⟨q, hlines, hmore⟩ := ih tail
          exact ⟨q, .cons head hlines, hmore⟩

/-- One line keeps the balance of depth, openings and closings. -/
theorem Line.Takes.balance (h : line.Takes p q) :
    p.depth + openings [line] = q.depth + closings [line] := by
  cases h with
  | blank depth => rfl
  | opening depth _ h => simp [openings, closings, Line.opens, Line.closes, h, not_closes_of_opens h]
  | closing depth _ h =>
      have hopens : ¬ Opens _ := fun hopens => not_closes_of_opens hopens h
      simp [openings, closings, Line.opens, Line.closes, h, hopens]
  | staying depth _ h =>
      simp [openings, closings, Line.opens, Line.closes, h.not_opens, h.not_closes]

theorem openings_append (lines more : List Line) :
    openings (lines ++ more) = openings lines + openings more :=
  List.countP_append

theorem closings_append (lines more : List Line) :
    closings (lines ++ more) = closings lines + closings more :=
  List.countP_append

theorem Run.balance (h : Run p lines q) :
    p.depth + openings lines = q.depth + closings lines := by
  induction h with
  | nil p => rfl
  | @cons p q r line lines head _ ih =>
      have hline := head.balance
      rw [← List.singleton_append, openings_append, closings_append]
      omega

/-- The depth of a content is the number of bodies that are open in front of it, the one that it
closes left out. -/
theorem Line.Takes.depth_add_closings {depth : Nat} {text : String}
    (h : (Line.content depth text).Takes p q) :
    depth + closings [.content depth text] = p.depth := by
  cases h with
  | opening _ _ h => simp [closings, Line.closes, not_closes_of_opens h]
  | closing _ _ h => simp [closings, Line.closes, h]
  | staying _ _ h => simp [closings, Line.closes, h.not_closes]

theorem Run.depth_add_closings {before after : List Line} {depth : Nat} {text : String}
    (h : Run p (before ++ .content depth text :: after) r) :
    depth + closings (before ++ [.content depth text]) = p.depth + openings before := by
  obtain ⟨q, hbefore, hrest⟩ := h.split
  cases hrest with
  | cons head tail =>
      -- the lines before give the depth in front of this one, the line itself the rest
      have hline := head.depth_add_closings
      have hbalance := hbefore.balance
      rw [closings_append]
      omega

theorem Run.no_blank_blank {before after : List Line}
    (h : Run p (before ++ .blank :: .blank :: after) r) : False := by
  obtain ⟨q, -, hrest⟩ := h.split
  cases hrest with
  | cons head tail =>
      cases head
      cases tail with
      | cons head _ => cases head

end Run

/-! ### The run of a declaration -/

theorem run_memberLines (depth : Nat) (members : List Member) :
    Run ⟨depth + 1, false⟩ (memberLines depth members) ⟨depth + 1, false⟩ := by
  induction members with
  | nil => exact .nil _
  | cons member members ih => exact .cons (.staying _ _ member.stays_text) ih

/-- The first line opens a body exactly if there is one. -/
theorem takes_firstLine (nested : Bool) (depth : Nat) (afterBlank : Bool) (d : Declaration) :
    (Line.content depth (d.declareWordOf nested ++ d.firstLine)).Takes ⟨depth, afterBlank⟩
      ⟨if (d.body depth).isEmpty then depth else depth + 1, false⟩ := by
  have hbody : ∀ head isEmpty, (Line.content depth (d.declareWordOf nested ++
      (head ++ bodyStart isEmpty))).Takes ⟨depth, afterBlank⟩
        ⟨if isEmpty then depth else depth + 1, false⟩ := by
    intro head isEmpty
    rw [← String.append_assoc]
    cases isEmpty with
    | true => exact .staying depth afterBlank (stays_emptyBody _)
    | false => exact .opening depth afterBlank (opens_append _)
  have hsemicolon : ∀ head, (Line.content depth (d.declareWordOf nested ++
      (head ++ ";"))).Takes ⟨depth, afterBlank⟩ ⟨depth, false⟩ := by
    intro head
    rw [← String.append_assoc]
    exact .staying depth afterBlank (stays_semicolon _)
  cases d with
  | interfaceDecl name bases members =>
      rw [Declaration.body, Declaration.isEmpty_memberLines]
      exact hbody _ _
  | classDecl name bases members =>
      rw [Declaration.body, Declaration.isEmpty_memberLines]
      exact hbody _ _
  | aliasDecl name type => exact hsemicolon _
  | variableDecl name type const => exact hsemicolon _
  | functionDecl name params returns => exact hsemicolon _
  | namespaceDecl name body =>
      rw [Declaration.body, Declaration.isEmpty_listLines]
      exact hbody _ _

/-- A body that comes back to its own depth makes a declaration that comes back to its depth. -/
theorem run_lines_of_body (nested : Bool) {depth : Nat} (afterBlank : Bool) {d : Declaration}
    (hbody : Run ⟨depth + 1, false⟩ (d.body depth) ⟨depth + 1, false⟩) :
    Run ⟨depth, afterBlank⟩ (d.lines nested depth) ⟨depth, false⟩ := by
  rw [Declaration.lines_eq_cons]
  refine .cons (takes_firstLine nested depth afterBlank d) ?_
  unfold bodyRest
  split
  · exact .nil _
  · exact hbody.append (Line.Takes.closing depth false rfl).run

mutual

theorem run_lines : ∀ (d : Declaration) (nested : Bool) (depth : Nat) (afterBlank : Bool),
    Run ⟨depth, afterBlank⟩ (d.lines nested depth) ⟨depth, false⟩
  | .interfaceDecl _ _ members, nested, depth, afterBlank =>
      run_lines_of_body nested afterBlank (run_memberLines depth members)
  | .classDecl _ _ members, nested, depth, afterBlank =>
      run_lines_of_body nested afterBlank (run_memberLines depth members)
  | .aliasDecl _ _, nested, _, afterBlank => run_lines_of_body nested afterBlank (.nil _)
  | .variableDecl _ _ _, nested, _, afterBlank => run_lines_of_body nested afterBlank (.nil _)
  | .functionDecl _ _ _, nested, _, afterBlank => run_lines_of_body nested afterBlank (.nil _)
  | .namespaceDecl _ body, nested, depth, afterBlank =>
      run_lines_of_body nested afterBlank (run_listLines body true (depth + 1))
termination_by structural declaration => declaration

theorem run_listLines : ∀ (declarations : List Declaration) (nested : Bool) (depth : Nat),
    Run ⟨depth, false⟩ (Declaration.listLines nested depth declarations) ⟨depth, false⟩
  | [], _, _ => .nil _
  | d :: rest, nested, depth =>
      (run_lines d nested depth false).append (run_linesAfter rest nested depth)
termination_by structural declarations => declarations

theorem run_linesAfter : ∀ (declarations : List Declaration) (nested : Bool) (depth : Nat),
    Run ⟨depth, false⟩ (Declaration.linesAfter nested depth declarations) ⟨depth, false⟩
  | [], _, _ => .nil _
  | d :: rest, nested, depth =>
      .cons (.blank depth) ((run_lines d nested depth true).append (run_linesAfter rest nested depth))
termination_by structural declarations => declarations

end

/-- **Layout.** The declarations have one list of lines for all print options. What is printed behind
the header is these lines, each with as many indentations as its depth says, and nothing on a blank
line; read as text, it has these lines and no others. The depth of a line is the number of bodies
that are opened in front of it, less those that are closed up to it; at the end all are closed, and
no blank line follows another. -/
theorem print_layout {declarations : List Declaration}
    (hnames : ∀ name ∈ Declaration.namesOf declarations, OneLine name) :
    ∃ lines : List Line,
      (∀ options : PrintOptions,
        print options declarations =
            headerPart options declarations ++ renderLines options.indent lines ∧
          Text.pieces (renderLines options.indent lines).toList =
            lines.map (fun line => (line.written options.indent).toList) ++ [[]]) ∧
      (∀ depth text, .content depth text ∈ lines → text ≠ "" ∧ OneLine text) ∧
      (∀ before depth text after, lines = before ++ .content depth text :: after →
        depth + closings (before ++ [.content depth text]) = openings before) ∧
      openings lines = closings lines ∧
      ∀ before after, lines ≠ before ++ .blank :: .blank :: after := by
  have hproper := Declaration.isProper_listLines false 0 hnames
  have hrun := run_listLines declarations false 0
  refine ⟨Declaration.listLines false 0 declarations, ?_, ?_, ?_, ?_, ?_⟩
  · intro options
    exact ⟨print_eq_headerPart_append options declarations,
      pieces_renderLines (oneLine_indent options) hproper⟩
  · intro depth text hmem
    exact hproper _ hmem
  · intro before depth text after heq
    rw [heq] at hrun
    have hdepth := hrun.depth_add_closings
    rwa [Nat.zero_add] at hdepth
  · have hbalance := hrun.balance
    rwa [Nat.zero_add, Nat.zero_add] at hbalance
  · intro before after heq
    rw [heq] at hrun
    exact hrun.no_blank_blank

/-- A namespace in a namespace, an empty one, and a string that looks like the end of a body. -/
def nestedModules : List Declaration :=
  [.namespaceDecl "Outer"
      [.namespaceDecl "Inner"
          [.classDecl "Box" []
            [.property ⟨.identifier "label", .stringLiteral " \x7b\n\x7d\n", false, true, false⟩]],
        .variableDecl "box" (.name "Box") true],
    .namespaceDecl "Empty" []]

theorem print_layout_nestedModules :
    (∀ name ∈ Declaration.namesOf nestedModules, OneLine name) ∧
      ∃ lines : List Line,
        (∀ options : PrintOptions, print options nestedModules =
          headerPart options nestedModules ++ renderLines options.indent lines) ∧
        openings lines = closings lines := by
  have hnames : ∀ name ∈ Declaration.namesOf nestedModules, OneLine name := by decide
  obtain ⟨lines, hprint, -, -, hbalance, -⟩ := print_layout hnames
  exact ⟨hnames, lines, fun options => (hprint options).1, hbalance⟩

end IdlTypings.Ts
