import IdlTypings.Proofs.Ts.DeclarationLines

/-!
# Declarations print the same wherever they stand

The depth of a declaration and the namespace around it change how its lines are indented and whether
it says `declare`, and nothing else. So what stands in a namespace prints as it does at the top
level, one level deeper and without that word, whatever stands before it.
-/

namespace IdlTypings.Ts

/-! ### One after the other -/

namespace Declaration

theorem linesAfter_append (nested : Bool) (depth : Nat) (first second : List Declaration) :
    linesAfter nested depth (first ++ second) =
      linesAfter nested depth first ++ linesAfter nested depth second := by
  induction first with
  | nil => rfl
  | cons d rest ih =>
      rw [List.cons_append, linesAfter, linesAfter, ih, List.append_assoc]

theorem listLines_append (nested : Bool) (depth : Nat) {first second : List Declaration}
    (hfirst : first ≠ []) (hsecond : second ≠ []) :
    listLines nested depth (first ++ second) =
      listLines nested depth first ++ .blank :: listLines nested depth second := by
  cases first with
  | nil => exact absurd rfl hfirst
  | cons d rest =>
      have hafter : linesAfter nested depth second = .blank :: listLines nested depth second := by
        rw [linesAfter_eq, if_neg (by simpa using hsecond)]
      rw [List.cons_append, listLines, listLines, linesAfter_append, hafter, List.append_assoc]

theorem listLines_singleton (nested : Bool) (depth : Nat) (d : Declaration) :
    listLines nested depth [d] = d.lines nested depth := by
  rw [listLines, linesAfter, List.append_nil]

/-- Declarations are rendered one by one, with a line feed between them. -/
theorem renderLines_listLines (indent : String) (nested : Bool) (depth : Nat)
    (declarations : List Declaration) :
    renderLines indent (listLines nested depth declarations) =
      "\n".intercalate (declarations.map fun d => renderLines indent (d.lines nested depth)) := by
  induction declarations with
  | nil => rfl
  | cons d rest ih =>
      cases rest with
      | nil => rw [listLines_singleton, List.map_singleton, String.intercalate_singleton]
      | cons next more =>
          have happend := listLines_append nested depth (List.cons_ne_nil d [])
            (List.cons_ne_nil next more)
          rw [List.singleton_append, listLines_singleton] at happend
          rw [happend, renderLines_append, renderLines_cons, ih]
          simp only [List.map_cons, String.intercalate_cons_cons, Line.written,
            String.empty_append, String.append_assoc]

end Declaration

theorem print_append {options : PrintOptions} (hheader : options.header = false)
    {first second : List Declaration} (hfirst : first ≠ []) (hsecond : second ≠ []) :
    print options (first ++ second) = print options first ++ "\n" ++ print options second := by
  simp only [print_of_no_header hheader]
  rw [Declaration.listLines_append false 0 hfirst hsecond, renderLines_append, renderLines_cons,
    Line.written, String.empty_append, String.append_assoc]

theorem print_singleton {options : PrintOptions} (hheader : options.header = false)
    (d : Declaration) : print options [d] = renderLines options.indent (d.lines false 0) := by
  rw [print_of_no_header hheader, Declaration.listLines_singleton]

theorem print_eq_intercalate {options : PrintOptions} (hheader : options.header = false)
    (declarations : List Declaration) :
    print options declarations =
      "\n".intercalate (declarations.map fun d => print options [d]) := by
  rw [print_of_no_header hheader, Declaration.renderLines_listLines]
  simp only [print_singleton hheader]

/-! ### One level deeper -/

def Line.deeper : Line → Line
  | .blank => .blank
  | .content depth text => .content (depth + 1) text

theorem memberLines_deeper (depth : Nat) (members : List Member) :
    memberLines (depth + 1) members = (memberLines depth members).map Line.deeper := by
  rw [memberLines, memberLines, List.map_map]
  rfl

theorem bodyRest_deeper (depth : Nat) (body : List Line) :
    bodyRest (depth + 1) (body.map Line.deeper) = (bodyRest depth body).map Line.deeper := by
  cases body with
  | nil => rfl
  | cons line body => simp [bodyRest, Line.deeper]

theorem lines_deeper_of_body {nested : Bool} {depth : Nat} {d : Declaration}
    (hbody : d.body (depth + 1) = (d.body depth).map Line.deeper) :
    d.lines nested (depth + 1) = (d.lines nested depth).map Line.deeper := by
  rw [Declaration.lines_eq_cons, Declaration.lines_eq_cons, hbody, bodyRest_deeper]
  rfl

mutual

/-- A declaration that stands one level deeper has the same lines, one level deeper. -/
theorem lines_deeper : ∀ (d : Declaration) (nested : Bool) (depth : Nat),
    d.lines nested (depth + 1) = (d.lines nested depth).map Line.deeper
  | .interfaceDecl _ _ members, _, depth => lines_deeper_of_body (memberLines_deeper depth members)
  | .classDecl _ _ members, _, depth => lines_deeper_of_body (memberLines_deeper depth members)
  | .aliasDecl _ _, _, _ => rfl
  | .variableDecl _ _ _, _, _ => rfl
  | .functionDecl _ _ _, _, _ => rfl
  | .namespaceDecl _ body, _, depth => lines_deeper_of_body (listLines_deeper body true (depth + 1))
termination_by structural d => d

theorem listLines_deeper : ∀ (declarations : List Declaration) (nested : Bool) (depth : Nat),
    Declaration.listLines nested (depth + 1) declarations =
      (Declaration.listLines nested depth declarations).map Line.deeper
  | [], _, _ => rfl
  | d :: rest, nested, depth => by
      rw [Declaration.listLines, Declaration.listLines, List.map_append, lines_deeper d,
        linesAfter_deeper rest]
termination_by structural declarations => declarations

theorem linesAfter_deeper : ∀ (declarations : List Declaration) (nested : Bool) (depth : Nat),
    Declaration.linesAfter nested (depth + 1) declarations =
      (Declaration.linesAfter nested depth declarations).map Line.deeper
  | [], _, _ => rfl
  | d :: rest, nested, depth => by
      rw [Declaration.linesAfter, Declaration.linesAfter, List.map_append, List.map_cons,
        lines_deeper d, linesAfter_deeper rest]
      rfl
termination_by structural declarations => declarations

end

/-- The text with each line that is not empty moved in. -/
def indentText (indent text : String) : String :=
  "\n".intercalate ((Text.pieces text.toList).map fun line =>
    if line.isEmpty then "" else indent ++ String.ofList line)

theorem Line.written_deeper (indent : String) {line : Line} (h : line.IsProper) :
    (if (line.written indent).toList.isEmpty then ""
      else indent ++ String.ofList (line.written indent).toList) = line.deeper.written indent := by
  cases line with
  | blank => rfl
  | content depth text =>
      have hne : (Line.content depth text).written indent ≠ "" := append_ne_empty h.1
      have hlist : ¬ ((Line.content depth text).written indent).toList.isEmpty = true := by
        rw [List.isEmpty_iff, ← String.toList_empty, String.toList_inj]
        exact hne
      rw [if_neg hlist, String.ofList_toList, deeper, written, written, List.replicate_succ,
        String.join_cons, String.append_assoc]

/-- **Moving a rendered text in is rendering it one level deeper.** -/
theorem indentText_renderLines {indent : String} (hindent : OneLine indent) {lines : List Line}
    (h : ∀ line ∈ lines, line.IsProper) :
    indentText indent (renderLines indent lines) = renderLines indent (lines.map Line.deeper) := by
  rw [indentText, pieces_renderLines hindent h, renderLines_eq_intercalate, List.map_append,
    List.map_map, List.map_map]
  congr 2
  refine List.map_congr_left fun line hline => ?_
  exact Line.written_deeper indent (h line hline)

/-! ### The word `declare` -/

def StartsWithDeclare (text : String) : Prop := "declare ".toList <+: text.toList

instance : DecidablePred StartsWithDeclare := fun text =>
  inferInstanceAs (Decidable ("declare ".toList <+: text.toList))

/-- The text without the word, if it starts with it. -/
def dropDeclare (text : String) : String :=
  if StartsWithDeclare text then String.ofList (text.toList.drop "declare ".length) else text

theorem dropDeclare_append (text : String) : dropDeclare ("declare " ++ text) = text := by
  have hstart : StartsWithDeclare ("declare " ++ text) := by
    rw [StartsWithDeclare, String.toList_append]
    exact List.prefix_append _ _
  have hlength : "declare ".length = "declare ".toList.length := rfl
  rw [dropDeclare, if_pos hstart, String.toList_append, hlength, List.drop_left, String.ofList_toList]

/-- The text of a line inside of a declaration begins neither with white space nor with the word. -/
structure StandsInside (text : String) : Prop where
  not_declare : ¬ StartsWithDeclare text
  head_ne : ∀ c ∈ text.toList.head?, c ≠ ' ' ∧ c ≠ '\t'

/-- The first character alone tells that the text does not begin with the word. -/
def BeginsElse (text : String) : Prop :=
  ∃ c rest, text.toList = c :: rest ∧ c ∉ ['d', ' ', '\t']

theorem BeginsElse.append {first : String} (h : BeginsElse first) (second : String) :
    BeginsElse (first ++ second) := by
  obtain ⟨c, rest, htext, hc⟩ := h
  refine ⟨c, rest ++ second.toList, ?_, hc⟩
  rw [String.toList_append, htext, List.cons_append]

theorem BeginsElse.standsInside {text : String} (h : BeginsElse text) : StandsInside text := by
  obtain ⟨c, rest, htext, hc⟩ := h
  simp only [List.mem_cons, List.not_mem_nil, or_false, not_or] at hc
  obtain ⟨hletter, hblank, htab⟩ := hc
  constructor
  · intro hdeclare
    rw [StartsWithDeclare, htext] at hdeclare
    exact hletter (List.cons_prefix_cons.mp hdeclare).1.symm
  · intro d hd
    rw [htext, List.head?_cons, Option.mem_some_iff] at hd
    rw [← hd]
    exact ⟨hblank, htab⟩

theorem beginsElse_firstLine (d : Declaration) : BeginsElse d.firstLine := by
  cases d with
  | interfaceDecl name bases members =>
      have hword : BeginsElse "interface " := ⟨_, _, rfl, by decide⟩
      exact ((hword.append name).append _).append _
  | classDecl name bases members =>
      have hword : BeginsElse "class " := ⟨_, _, rfl, by decide⟩
      have hhead := hword.append name
      match bases with
      | [] => exact hhead.append _
      | [base] => exact ((hhead.append _).append _).append _
      | base :: other :: others => exact ((((hhead.append _).append _).append _).append _).append _
  | aliasDecl name type =>
      have hword : BeginsElse "type " := ⟨_, _, rfl, by decide⟩
      exact (((hword.append name).append _).append _).append _
  | variableDecl name type const =>
      have hword : BeginsElse (if const then "const " else "var ") := by
        cases const <;> exact ⟨_, _, rfl, by decide⟩
      exact (((hword.append name).append _).append _).append _
  | functionDecl name params returns =>
      have hword : BeginsElse "function " := ⟨_, _, rfl, by decide⟩
      exact (((((hword.append name).append _).append _).append _).append _).append _
  | namespaceDecl name body =>
      have hword : BeginsElse "namespace " := ⟨_, _, rfl, by decide⟩
      exact (hword.append name).append _

/-- There is no white space in the name. -/
def Unspaced (name : String) : Prop := name.toList.all (fun c => !c.isWhitespace) = true

instance : DecidablePred Unspaced := fun name =>
  inferInstanceAs (Decidable (name.toList.all (fun c => !c.isWhitespace) = true))

theorem Unspaced.not_isWhitespace {name : String} (h : Unspaced name) {c : Char}
    (hc : c ∈ name.toList) : ¬ c.isWhitespace = true := by
  have hspace := List.all_eq_true.mp h c hc
  rwa [Bool.not_eq_true', ← Bool.not_eq_true] at hspace

theorem Unspaced.oneLine {name : String} (h : Unspaced name) : OneLine name :=
  fun hmem => h.not_isWhitespace hmem (by decide)

/-- A name that a mark follows is not the word, whose blank follows it at once. -/
theorem standsInside_word {word : String} (hword : Unspaced word) {text : String} {c : Char}
    {rest : List Char} (htext : text.toList = c :: rest) (hc : c ∈ ['?', ':', '(']) :
    StandsInside (word ++ text) := by
  constructor
  · intro hdeclare
    rw [StartsWithDeclare, String.toList_append, htext] at hdeclare
    have hnoBlank : ' ' ∉ word.toList := fun hmem => hword.not_isWhitespace hmem (by decide)
    -- the blank of `declare ` would be in the word, or the mark after the word in `declare `
    rcases List.prefix_or_prefix_of_prefix hdeclare (List.prefix_append word.toList (c :: rest))
      with hlong | ⟨more, hmore⟩
    · exact hnoBlank (hlong.subset (by decide))
    · rw [← hmore, List.prefix_append_right_inj] at hdeclare
      cases more with
      | nil =>
          rw [List.append_nil] at hmore
          exact hnoBlank (hmore ▸ by decide)
      | cons d more =>
          obtain ⟨rfl, -⟩ := List.cons_prefix_cons.mp hdeclare
          have hmem : d ∈ "declare ".toList := hmore ▸ List.mem_append_right _ List.mem_cons_self
          simp only [List.mem_cons, List.not_mem_nil, or_false] at hc
          rcases hc with rfl | rfl | rfl
          iterate 3
            · exact absurd hmem (by decide)
  · intro d hd
    rw [String.toList_append, htext] at hd
    cases hchars : word.toList with
    | nil =>
        rw [hchars, List.nil_append, List.head?_cons, Option.mem_some_iff] at hd
        rw [hd] at hc
        simp only [List.mem_cons, List.not_mem_nil, or_false] at hc
        rcases hc with rfl | rfl | rfl
        iterate 3
          · decide
    | cons first others =>
        rw [hchars, List.cons_append, List.head?_cons, Option.mem_some_iff] at hd
        have hfirst : ¬ d.isWhitespace = true := by
          rw [← hd]
          exact hword.not_isWhitespace (by rw [hchars]; exact List.mem_cons_self)
        constructor
        · rintro rfl
          exact hfirst (by decide)
        · rintro rfl
          exact hfirst (by decide)

theorem standsInside_memberName {name : MemberName} (hname : Unspaced name.word) {text : String}
    {c : Char} {rest : List Char} (htext : text.toList = c :: rest) (hc : c ∈ ['?', ':', '(']) :
    StandsInside (name.text ++ text) := by
  cases name with
  | identifier word => exact standsInside_word hname htext hc
  | computed expression =>
      have hbracket : BeginsElse "[" := ⟨_, _, rfl, by decide⟩
      exact (((hbracket.append expression).append _).append _).standsInside

theorem wordIf_false_append (word text : String) : wordIf false word ++ text = text :=
  String.empty_append

theorem standsInside_member (member : Member) (h : ∀ name ∈ member.names, Unspaced name) :
    StandsInside member.text := by
  have hstatic : BeginsElse "static " := ⟨_, _, rfl, by decide⟩
  have hreadonly : BeginsElse "readonly " := ⟨_, _, rfl, by decide⟩
  cases member with
  | property p =>
      have hname : Unspaced p.name.word := h _ List.mem_cons_self
      obtain ⟨name, type, optional, readonly, static⟩ := p
      simp only [Member.text, Property.text, String.append_assoc]
      cases static with
      | true => exact (hstatic.append _).standsInside
      | false =>
          rw [wordIf_false_append]
          cases readonly with
          | true => exact (hreadonly.append _).standsInside
          | false =>
              rw [wordIf_false_append]
              cases optional with
              | true => exact standsInside_memberName hname String.toList_append (by decide)
              | false =>
                  rw [wordIf_false_append]
                  exact standsInside_memberName hname String.toList_append (by decide)
  | method m =>
      have hname : Unspaced m.name.word := h _ List.mem_cons_self
      obtain ⟨name, params, returns, static⟩ := m
      simp only [Member.text, Method.text, String.append_assoc]
      cases static with
      | true => exact (hstatic.append _).standsInside
      | false =>
          rw [wordIf_false_append]
          exact standsInside_memberName hname String.toList_append (by decide)
  | constructSignature params returns =>
      have hword : BeginsElse "new (" := ⟨_, _, rfl, by decide⟩
      exact ((((hword.append _).append _).append _).append _).standsInside
  | classConstructor params =>
      have hword : BeginsElse "constructor(" := ⟨_, _, rfl, by decide⟩
      exact ((hword.append _).append _).standsInside
  | index signature =>
      obtain ⟨key, keyType, valueType, readonly⟩ := signature
      simp only [Member.text, IndexSignature.text, String.append_assoc]
      cases readonly with
      | true => exact (hreadonly.append _).standsInside
      | false =>
          have hbracket : BeginsElse "[" := ⟨_, _, rfl, by decide⟩
          rw [wordIf_false_append]
          exact (hbracket.append _).standsInside

theorem holdsOfParts_standsInside : HoldsOfParts Unspaced StandsInside where
  first d _ := (beginsElse_firstLine d).standsInside
  member := standsInside_member
  closing := BeginsElse.standsInside ⟨_, _, rfl, by decide⟩

/-! ### Printing -/

section Print

variable {options : PrintOptions}

/-- At the top level the first line says `declare` where the kind of the declaration asks for it. -/
theorem print_singleton_eq_append (hheader : options.header = false) (d : Declaration) :
    print options [d] =
      d.declareWordOf false ++ renderLines options.indent (d.lines true 0) := by
  rw [print_singleton hheader, Declaration.lines_eq_cons, Declaration.lines_eq_cons true,
    Declaration.declareWordOf_nested, String.empty_append, renderLines_cons, renderLines_cons]
  simp only [Line.written, List.replicate_zero, String.join_nil, String.empty_append,
    String.append_assoc]

theorem beginsElse_renderLines (indent : String) (d : Declaration) :
    BeginsElse (renderLines indent (d.lines true 0)) := by
  rw [Declaration.lines_eq_cons, Declaration.declareWordOf_nested, String.empty_append,
    renderLines_cons, Line.written, List.replicate_zero, String.join_nil, String.empty_append]
  exact ((beginsElse_firstLine d).append _).append _

theorem startsWithDeclare_print_iff (hheader : options.header = false) (d : Declaration) :
    StartsWithDeclare (print options [d]) ↔ d.kind.saysDeclare = true := by
  rw [print_singleton_eq_append hheader, Declaration.declareWordOf]
  cases hsays : d.kind.saysDeclare with
  | false =>
      have hnot := (beginsElse_renderLines options.indent d).standsInside.not_declare
      refine ⟨fun hstart => absurd ?_ hnot, fun h => absurd h Bool.false_ne_true⟩
      rwa [Bool.false_and, wordIf_false_append] at hstart
  | true =>
      refine ⟨fun _ => rfl, fun _ => ?_⟩
      rw [StartsWithDeclare, String.toList_append]
      exact List.prefix_append _ _

theorem dropDeclare_print (hheader : options.header = false) (d : Declaration) :
    dropDeclare (print options [d]) = renderLines options.indent (d.lines true 0) := by
  have hstart := startsWithDeclare_print_iff hheader d
  rw [print_singleton_eq_append hheader] at hstart ⊢
  cases hsays : d.kind.saysDeclare with
  | false =>
      have hnot : ¬ StartsWithDeclare
          (d.declareWordOf false ++ renderLines options.indent (d.lines true 0)) := by
        rw [hstart, hsays]
        exact Bool.false_ne_true
      rw [dropDeclare, if_neg hnot, Declaration.declareWordOf, hsays, Bool.false_and,
        wordIf_false_append]
  | true =>
      have hword : d.declareWordOf false = "declare " := by
        rw [Declaration.declareWordOf, hsays]
        rfl
      rw [hword, dropDeclare_append]

/-- What a declaration prints inside a namespace, whatever stands around it there. -/
theorem indentText_dropDeclare_print (hheader : options.header = false) {d : Declaration}
    (hnames : ∀ name ∈ d.names, OneLine name) :
    indentText options.indent (dropDeclare (print options [d])) =
      renderLines options.indent (d.lines true 1) := by
  rw [dropDeclare_print hheader, indentText_renderLines (oneLine_indent options)
    (Declaration.isProper_lines true 0 hnames), lines_deeper]

theorem print_namespaceDecl (hheader : options.header = false) (name : String)
    {body : List Declaration} (hbody : body ≠ []) :
    print options [.namespaceDecl name body] =
      "declare namespace " ++ name ++ " \x7b\n" ++
        renderLines options.indent (Declaration.listLines true 1 body) ++ "\x7d\n" := by
  have hempty : (Declaration.listLines true 1 body).isEmpty = false := by
    rw [Declaration.isEmpty_listLines]
    simpa using hbody
  have hlines : (Declaration.namespaceDecl name body).lines false 0 =
      .content 0 ("declare " ++ "namespace " ++ name ++ " \x7b") ::
        (Declaration.listLines true 1 body ++ [.content 0 "\x7d"]) := by
    rw [Declaration.lines, bodyLines_eq_cons, bodyRest, hempty]
    rfl
  rw [print_singleton hheader, hlines, renderLines_cons, renderLines_append, renderLines_cons,
    renderLines_nil]
  simp only [Line.written, List.replicate_zero, String.join_nil, String.empty_append,
    String.append_empty, String.append_assoc]
  rfl

def isIndentation (c : Char) : Bool := c = ' ' || c = '\t'

theorem isIndentation_of_mem_indent {c : Char} (h : c ∈ options.indent.toList) :
    isIndentation c = true := by
  unfold PrintOptions.indent at h
  split at h
  · obtain rfl := List.mem_singleton.mp h
    rfl
  · rw [String.toList_ofList] at h
    rw [List.eq_of_mem_replicate h]
    rfl

/-- Behind the indentation of a line stands its content. -/
theorem dropWhile_written (depth : Nat) {text : String} (h : StandsInside text) :
    ((Line.content depth text).written options.indent).toList.dropWhile isIndentation =
      text.toList := by
  have hindent : ∀ c ∈ (String.join (List.replicate depth options.indent)).toList,
      isIndentation c = true := by
    intro c hc
    rw [String.toList_join, List.mem_flatMap] at hc
    obtain ⟨indent, hmem, hc⟩ := hc
    rw [List.eq_of_mem_replicate hmem] at hc
    exact isIndentation_of_mem_indent hc
  have hhead := h.head_ne
  rw [Line.written, String.toList_append, List.dropWhile_append_of_pos hindent]
  cases hchars : text.toList with
  | nil => rfl
  | cons c rest =>
      rw [hchars] at hhead
      have hc := hhead c rfl
      have hnot : ¬ isIndentation c = true := by simp [isIndentation, hc.1, hc.2]
      rw [List.dropWhile_cons_of_neg hnot]

theorem not_declare_below (hheader : options.header = false) {d : Declaration}
    (hnames : ∀ name ∈ d.names, Unspaced name) :
    ∀ line ∈ (Text.pieces (print options [d]).toList).tail,
      ¬ "declare ".toList <+: line.dropWhile isIndentation := by
  have hone : ∀ name ∈ d.names, OneLine name := fun name hname => (hnames name hname).oneLine
  have hproper := Declaration.isProper_lines false 0 hone
  have hinside := holdsOfParts_standsInside.says_lines d 0 hnames
  rw [Declaration.lines_eq_cons, List.forall_mem_cons] at hinside
  rw [print_singleton hheader, pieces_renderLines (oneLine_indent options) hproper,
    Declaration.lines_eq_cons, List.map_cons, List.cons_append, List.tail_cons]
  intro line hline
  have hnil : ¬ "declare ".toList <+: ([] : List Char) := by decide
  -- a line below the first is one of those of the body, or the nothing behind the last line feed
  rcases List.mem_append.mp hline with hline | hline
  · obtain ⟨source, hsource, rfl⟩ := List.mem_map.mp hline
    cases source with
    | blank => exact hnil
    | content depth text =>
        have hcontent : StandsInside text := hinside.2 _ hsource
        rw [dropWhile_written depth hcontent]
        exact hcontent.not_declare
  · rw [List.mem_singleton.mp hline]
    exact hnil

/-- The lines of a body are those that it prints at the top level, without the word and moved in. -/
theorem indentText_body (hheader : options.header = false) {body : List Declaration}
    (hnames : ∀ name ∈ Declaration.namesOf body, OneLine name) :
    indentText options.indent
        ("\n".intercalate (body.map fun d => dropDeclare (print options [d]))) =
      renderLines options.indent (Declaration.listLines true 1 body) := by
  simp only [dropDeclare_print hheader]
  rw [← Declaration.renderLines_listLines, indentText_renderLines (oneLine_indent options)
    (Declaration.isProper_listLines true 0 hnames), listLines_deeper]

theorem saysDeclare_iff (kind : DeclarationKind) :
    kind.saysDeclare = true ↔
      kind ∈ [.classKind, .variableKind, .functionKind, .namespaceKind] := by
  cases kind <;> decide

/-- **Printing is context free.** Without a header, two parts of a file print as they do by
themselves, with a blank line between them, and so do single declarations. The word `declare` comes
first exactly for classes, variables, functions and namespaces. In a namespace a body prints as it
does at the top level, with that word dropped from each of its declarations and every line moved in
by one indentation; so each declaration of the body prints by itself, whatever comes before it. No
line but the first of a declaration begins with the word. -/
theorem print_contextFree (options : PrintOptions) (hheader : options.header = false)
    {forest : List Declaration} (hnames : ∀ name ∈ Declaration.namesOf forest, Unspaced name) :
    (∀ first second, first ≠ [] → second ≠ [] → forest = first ++ second →
      print options forest = print options first ++ "\n" ++ print options second) ∧
    print options forest = "\n".intercalate (forest.map fun d => print options [d]) ∧
    (∀ d ∈ forest, StartsWithDeclare (print options [d]) ↔
      d.kind ∈ [.classKind, .variableKind, .functionKind, .namespaceKind]) ∧
    (∀ name, forest ≠ [] →
      print options [.namespaceDecl name forest] =
          "declare namespace " ++ name ++ " \x7b\n" ++
            indentText options.indent
              ("\n".intercalate (forest.map fun d => dropDeclare (print options [d]))) ++
            "\x7d\n" ∧
        print options [.namespaceDecl name forest] =
          "declare namespace " ++ name ++ " \x7b\n" ++
            "\n".intercalate (forest.map fun d =>
              indentText options.indent (dropDeclare (print options [d]))) ++
            "\x7d\n") ∧
    ∀ d ∈ forest, ∀ line ∈ (Text.pieces (print options [d]).toList).tail,
      ¬ "declare ".toList <+: line.dropWhile isIndentation := by
  have hone : ∀ name ∈ Declaration.namesOf forest, OneLine name :=
    fun name hname => (hnames name hname).oneLine
  refine ⟨?_, print_eq_intercalate hheader forest, ?_, ?_, ?_⟩
  · rintro first second hfirst hsecond rfl
    exact print_append hheader hfirst hsecond
  · intro d _
    rw [startsWithDeclare_print_iff hheader, saysDeclare_iff]
  · intro name hforest
    have heach : (forest.map fun d => indentText options.indent (dropDeclare (print options [d]))) =
        forest.map fun d => renderLines options.indent (d.lines true 1) :=
      List.map_congr_left fun d hd => indentText_dropDeclare_print hheader fun name hname =>
        hone name (Declaration.names_subset_namesOf hd hname)
    rw [print_namespaceDecl hheader name hforest, indentText_body hheader hone, heach,
      Declaration.renderLines_listLines]
    exact ⟨rfl, rfl⟩
  · intro d hd
    exact not_declare_below hheader fun name hname =>
      hnames name (Declaration.names_subset_namesOf hd hname)

end Print

/-- A class in a namespace, an empty namespace, and a variable behind them. -/
def scatteredDeclarations : List Declaration :=
  [.namespaceDecl "Shapes" [.classDecl "Box" [] []],
    .namespaceDecl "Empty" [],
    .variableDecl "declare" (.stringLiteral "\ndeclare \x7b") true]

/-- The variable prints by itself behind the namespaces. -/
theorem print_scatteredDeclarations :
    (∀ name ∈ Declaration.namesOf scatteredDeclarations, Unspaced name) ∧
      print ⟨2, false, false⟩ [.namespaceDecl "Module" scatteredDeclarations] =
        "declare namespace Module \x7b\n" ++
          ("  namespace Shapes \x7b\n    class Box \x7b\x7d\n  \x7d\n\n" ++
            "  namespace Empty \x7b\x7d\n\n" ++
            "  const declare: \"\\ndeclare \x7b\";\n") ++
          "\x7d\n" := by
  have hnames : ∀ name ∈ Declaration.namesOf scatteredDeclarations, Unspaced name := by decide
  obtain ⟨-, -, -, hnamespace, -⟩ := print_contextFree ⟨2, false, false⟩ rfl hnames
  refine ⟨hnames, ?_⟩
  rw [(hnamespace "Module" (List.cons_ne_nil _ _)).2]
  rfl

end IdlTypings.Ts
