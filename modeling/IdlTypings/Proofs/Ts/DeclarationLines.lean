import IdlTypings.Proofs.Ts.Rendering

/-!
# The lines of a declaration

A declaration has a first line and, if its body is not empty, the lines of the body with a closing
line. Only the first line depends on where the declaration stands.
-/

namespace IdlTypings.Ts

/-- At the top level, what gives a value is declared. -/
def DeclarationKind.saysDeclare : DeclarationKind → Bool
  | .classKind | .variableKind | .functionKind | .namespaceKind => true
  | .interfaceKind | .aliasKind => false

/-- How the first line of a declaration with a body ends. -/
def bodyStart (isEmpty : Bool) : String :=
  if isEmpty then " \x7b\x7d" else " \x7b"

/-- What follows the first line. -/
def bodyRest (depth : Nat) (body : List Line) : List Line :=
  if body.isEmpty then [] else body ++ [.content depth "\x7d"]

theorem bodyLines_eq_cons (depth : Nat) (head : String) (body : List Line) :
    bodyLines depth head body =
      .content depth (head ++ bodyStart body.isEmpty) :: bodyRest depth body := by
  unfold bodyLines bodyStart bodyRest
  split <;> rfl

namespace Declaration

/-- The first line without the word `declare`. -/
def firstLine : Declaration → String
  | .interfaceDecl name bases members => interfaceHead name bases ++ bodyStart members.isEmpty
  | .classDecl name bases members => classHead name bases ++ bodyStart members.isEmpty
  | .aliasDecl name type => "type " ++ name ++ " = " ++ type.text ++ ";"
  | .variableDecl name type const =>
      (if const then "const " else "var ") ++ name ++ ": " ++ type.text ++ ";"
  | .functionDecl name params returns =>
      "function " ++ name ++ "(" ++ paramsText params ++ "): " ++ returns.text ++ ";"
  | .namespaceDecl name body => "namespace " ++ name ++ bodyStart body.isEmpty

/-- The lines of the body of a declaration at some depth. -/
def body (depth : Nat) : Declaration → List Line
  | .interfaceDecl _ _ members => memberLines depth members
  | .classDecl _ _ members => memberLines depth members
  | .namespaceDecl _ body => Declaration.listLines true (depth + 1) body
  | _ => []

def declareWordOf (nested : Bool) (declaration : Declaration) : String :=
  wordIf (declaration.kind.saysDeclare && !nested) "declare "

@[simp]
theorem declareWordOf_nested (declaration : Declaration) : declaration.declareWordOf true = "" := by
  simp [declareWordOf, wordIf]

theorem isEmpty_listLines (nested : Bool) (depth : Nat) (declarations : List Declaration) :
    (listLines nested depth declarations).isEmpty = declarations.isEmpty := by
  cases declarations with
  | nil => rfl
  | cons declaration rest =>
      cases declaration <;> simp [listLines, lines, bodyLines_eq_cons]

theorem isEmpty_memberLines (depth : Nat) (members : List Member) :
    (memberLines depth members).isEmpty = members.isEmpty :=
  List.isEmpty_map

/-- **A declaration is its first line and its body.** The body is the same wherever the declaration
stands at this depth. -/
theorem lines_eq_cons (nested : Bool) (depth : Nat) (declaration : Declaration) :
    declaration.lines nested depth =
      .content depth (declaration.declareWordOf nested ++ declaration.firstLine) ::
        bodyRest depth (declaration.body depth) := by
  cases declaration with
  | interfaceDecl name bases members =>
      rw [lines, bodyLines_eq_cons, isEmpty_memberLines]
      rfl
  | classDecl name bases members =>
      rw [lines, bodyLines_eq_cons, isEmpty_memberLines, String.append_assoc]
      rfl
  | aliasDecl name type => rfl
  | variableDecl name type const =>
      simp only [lines, firstLine, String.append_assoc]
      rfl
  | functionDecl name params returns =>
      simp only [lines, firstLine, String.append_assoc]
      rfl
  | namespaceDecl name body =>
      rw [lines, bodyLines_eq_cons, isEmpty_listLines]
      simp only [firstLine, String.append_assoc]
      rfl

theorem linesAfter_eq (nested : Bool) (depth : Nat) (declarations : List Declaration) :
    linesAfter nested depth declarations =
      if declarations.isEmpty then [] else .blank :: listLines nested depth declarations := by
  cases declarations <;> rfl

end Declaration

/-! ### What every line says -/

section Says

variable {N P : String → Prop}

theorem says_lines_of_body {depth : Nat} {declaration : Declaration} (hfirst : P declaration.firstLine)
    (hclose : P "\x7d") (hbody : ∀ line ∈ declaration.body depth, line.Says P) :
    ∀ line ∈ declaration.lines true depth, line.Says P := by
  rw [Declaration.lines_eq_cons, Declaration.declareWordOf_nested, String.empty_append, bodyRest,
    List.forall_mem_cons]
  refine ⟨hfirst, ?_⟩
  split
  · exact fun _ h => absurd h List.not_mem_nil
  · exact List.forall_mem_append.mpr ⟨hbody, List.forall_mem_singleton.mpr hclose⟩

/-- What holds of the first lines, of the members and of the closing lines of all declarations with
names of some kind. -/
structure HoldsOfParts (N P : String → Prop) : Prop where
  first : ∀ d : Declaration, (∀ name ∈ d.names, N name) → P d.firstLine
  member : ∀ m : Member, (∀ name ∈ m.names, N name) → P m.text
  closing : P "\x7d"

theorem says_memberLines (hparts : HoldsOfParts N P) (depth : Nat) {members : List Member}
    (h : ∀ name ∈ members.flatMap Member.names, N name) :
    ∀ line ∈ memberLines depth members, line.Says P := by
  intro line hline
  obtain ⟨member, hmember, rfl⟩ := List.mem_map.mp hline
  exact hparts.member member fun name hname =>
    h name (List.mem_flatMap.mpr ⟨member, hmember, hname⟩)

mutual

/-- Inside a namespace, all lines of a declaration say what its parts say. -/
theorem HoldsOfParts.says_lines (hparts : HoldsOfParts N P) :
    ∀ (declaration : Declaration) (depth : Nat), (∀ name ∈ declaration.names, N name) →
      ∀ line ∈ declaration.lines true depth, line.Says P
  | .interfaceDecl _ _ _, depth, h =>
      says_lines_of_body (hparts.first _ h) hparts.closing
        (says_memberLines hparts depth fun name hname =>
          h name (List.mem_append_right _ hname))
  | .classDecl _ _ _, depth, h =>
      says_lines_of_body (hparts.first _ h) hparts.closing
        (says_memberLines hparts depth fun name hname =>
          h name (List.mem_append_right _ hname))
  | .aliasDecl _ _, _, h => says_lines_of_body (hparts.first _ h) hparts.closing nofun
  | .variableDecl _ _ _, _, h =>
      says_lines_of_body (hparts.first _ h) hparts.closing nofun
  | .functionDecl _ _ _, _, h =>
      says_lines_of_body (hparts.first _ h) hparts.closing nofun
  | .namespaceDecl _ body, depth, h =>
      says_lines_of_body (hparts.first _ h) hparts.closing
        (hparts.says_listLines body (depth + 1) fun name hname =>
          h name (List.mem_cons_of_mem _ hname))
termination_by structural declaration => declaration

theorem HoldsOfParts.says_listLines (hparts : HoldsOfParts N P) :
    ∀ (declarations : List Declaration) (depth : Nat),
      (∀ name ∈ Declaration.namesOf declarations, N name) →
        ∀ line ∈ Declaration.listLines true depth declarations, line.Says P
  | [], _, _ => nofun
  | declaration :: rest, depth, h => by
      obtain ⟨hfirst, hrest⟩ := List.forall_mem_append.mp h
      rw [Declaration.listLines, List.forall_mem_append]
      exact ⟨hparts.says_lines declaration depth hfirst, hparts.says_linesAfter rest depth hrest⟩
termination_by structural declarations => declarations

theorem HoldsOfParts.says_linesAfter (hparts : HoldsOfParts N P) :
    ∀ (declarations : List Declaration) (depth : Nat),
      (∀ name ∈ Declaration.namesOf declarations, N name) →
        ∀ line ∈ Declaration.linesAfter true depth declarations, line.Says P
  | [], _, _ => nofun
  | declaration :: rest, depth, h => by
      obtain ⟨hfirst, hrest⟩ := List.forall_mem_append.mp h
      rw [Declaration.linesAfter, List.cons_append, List.forall_mem_cons, List.forall_mem_append]
      exact ⟨trivial, hparts.says_lines declaration depth hfirst,
        hparts.says_linesAfter rest depth hrest⟩
termination_by structural declarations => declarations

end

end Says

/-! ### Contents stay on their line -/

theorem append_ne_empty {first second : String} (h : second ≠ "") : first ++ second ≠ "" := by
  intro happend
  exact h (String.append_eq_empty_iff.mp happend).2

theorem bodyStart_ne_empty (isEmpty : Bool) : bodyStart isEmpty ≠ "" := by
  cases isEmpty <;> decide

theorem oneLine_bodyStart (isEmpty : Bool) : OneLine (bodyStart isEmpty) := by
  cases isEmpty <;> decide

theorem Declaration.firstLine_ne_empty (d : Declaration) : d.firstLine ≠ "" := by
  cases d with
  | interfaceDecl name bases members => exact append_ne_empty (bodyStart_ne_empty _)
  | classDecl name bases members => exact append_ne_empty (bodyStart_ne_empty _)
  | aliasDecl name type => exact append_ne_empty (by decide)
  | variableDecl name type const => exact append_ne_empty (by decide)
  | functionDecl name params returns => exact append_ne_empty (by decide)
  | namespaceDecl name body => exact append_ne_empty (bodyStart_ne_empty _)

/-- Every member ends in a semicolon. -/
theorem Member.exists_text_eq (member : Member) : ∃ head, member.text = head ++ ";" := by
  cases member with
  | property p => exact ⟨_, rfl⟩
  | method m => exact ⟨_, rfl⟩
  | constructSignature params returns => exact ⟨_, rfl⟩
  | classConstructor params =>
      refine ⟨"constructor(" ++ paramsText params ++ ")", ?_⟩
      have hend : ");" = ")" ++ ";" := rfl
      rw [Member.text, hend]
      simp only [String.append_assoc]
  | index signature => exact ⟨_, rfl⟩

theorem Member.text_ne_empty (member : Member) : member.text ≠ "" := by
  obtain ⟨head, hhead⟩ := member.exists_text_eq
  rw [hhead]
  exact append_ne_empty (by decide)

theorem oneLine_interfaceHead {name : String} {bases : List TypeExpr} (hname : OneLine name)
    (hbases : ∀ name ∈ TypeExpr.namesOf bases, OneLine name) :
    OneLine (interfaceHead name bases) := by
  have hhead : OneLine ("interface " ++ name) := .append (by decide) hname
  refine hhead.append ?_
  split
  · decide
  · exact .append (by decide) (oneLine_typesText hbases)

theorem oneLine_classHead {name : String} {bases : List TypeExpr} (hname : OneLine name)
    (hbases : ∀ name ∈ TypeExpr.namesOf bases, OneLine name) : OneLine (classHead name bases) := by
  have hhead : OneLine ("class " ++ name) := .append (by decide) hname
  have hextends : OneLine ("class " ++ name ++ " extends ") := hhead.append (by decide)
  match bases, hbases with
  | [], _ => exact hhead
  | [base], hbases =>
      have hbase := oneLine_type base fun name hmem => hbases name (List.mem_append_left _ hmem)
      exact hextends.append hbase
  | base :: other :: others, hbases =>
      obtain ⟨hbase, hothers⟩ := List.forall_mem_append.mp hbases
      have hfirst := hextends.append (oneLine_type base hbase)
      have himplements : OneLine " implements " := by decide
      exact (hfirst.append himplements).append (oneLine_typesText hothers)

theorem Declaration.oneLine_firstLine (d : Declaration) (h : ∀ name ∈ d.names, OneLine name) :
    OneLine d.firstLine := by
  have hcolon : OneLine ": " := by decide
  have hend : OneLine ";" := by decide
  cases d with
  | interfaceDecl name bases members =>
      obtain ⟨hname, hrest⟩ := List.forall_mem_cons.mp h
      exact (oneLine_interfaceHead hname (List.forall_mem_append.mp hrest).1).append
        (oneLine_bodyStart _)
  | classDecl name bases members =>
      obtain ⟨hname, hrest⟩ := List.forall_mem_cons.mp h
      exact (oneLine_classHead hname (List.forall_mem_append.mp hrest).1).append
        (oneLine_bodyStart _)
  | aliasDecl name type =>
      obtain ⟨hname, htype⟩ := List.forall_mem_cons.mp h
      have hword : OneLine "type " := by decide
      have hequals : OneLine " = " := by decide
      have hhead := (hword.append hname).append hequals
      exact (hhead.append (oneLine_type type htype)).append hend
  | variableDecl name type const =>
      obtain ⟨hname, htype⟩ := List.forall_mem_cons.mp h
      have hword : OneLine (if const then "const " else "var ") := by cases const <;> decide
      exact (((hword.append hname).append hcolon).append (oneLine_type type htype)).append hend
  | functionDecl name params returns =>
      obtain ⟨hhead, hreturns⟩ := List.forall_mem_append.mp h
      obtain ⟨hname, hparams⟩ := List.forall_mem_cons.mp hhead
      have hword : OneLine "function " := by decide
      have hopen : OneLine "(" := by decide
      have hreturn : OneLine "): " := by decide
      have hparams := ((hword.append hname).append hopen).append (oneLine_paramsText hparams)
      exact ((hparams.append hreturn).append (oneLine_type returns hreturns)).append hend
  | namespaceDecl name body =>
      obtain ⟨hname, -⟩ := List.forall_mem_cons.mp h
      have hword : OneLine "namespace " := by decide
      exact (hword.append hname).append (oneLine_bodyStart _)

/-- A content is not empty and has no line feed, if no name has one. -/
theorem holdsOfParts_proper : HoldsOfParts OneLine fun text => text ≠ "" ∧ OneLine text where
  first d h := ⟨d.firstLine_ne_empty, d.oneLine_firstLine h⟩
  member m h := ⟨m.text_ne_empty, oneLine_member m h⟩
  closing := ⟨by decide, by decide⟩

namespace Declaration

theorem isProper_lines (nested : Bool) (depth : Nat) {d : Declaration}
    (h : ∀ name ∈ d.names, OneLine name) : ∀ line ∈ d.lines nested depth, line.IsProper := by
  have hinner := holdsOfParts_proper.says_lines d depth h
  rw [lines_eq_cons, List.forall_mem_cons] at hinner ⊢
  have hword : OneLine (d.declareWordOf nested) := .wordIf (by decide) _
  exact ⟨⟨append_ne_empty d.firstLine_ne_empty, hword.append (d.oneLine_firstLine h)⟩, hinner.2⟩

theorem eq_blank_or_mem_lines {nested : Bool} {depth : Nat} {line : Line}
    {declarations : List Declaration} (h : line ∈ listLines nested depth declarations) :
    line = .blank ∨ ∃ d ∈ declarations, line ∈ d.lines nested depth := by
  induction declarations with
  | nil => cases h
  | cons d rest ih =>
      rw [listLines, linesAfter_eq, List.mem_append] at h
      rcases h with hline | hrest
      · exact .inr ⟨d, List.mem_cons_self, hline⟩
      · split at hrest
        · cases hrest
        · rcases List.mem_cons.mp hrest with hblank | hrest
          · exact .inl hblank
          · obtain hblank | ⟨e, he, hline⟩ := ih hrest
            · exact .inl hblank
            · exact .inr ⟨e, List.mem_cons_of_mem _ he, hline⟩

theorem isProper_listLines (nested : Bool) (depth : Nat) {declarations : List Declaration}
    (h : ∀ name ∈ namesOf declarations, OneLine name) :
    ∀ line ∈ listLines nested depth declarations, line.IsProper := by
  intro line hline
  obtain rfl | ⟨d, hd, hline⟩ := eq_blank_or_mem_lines hline
  · trivial
  · exact isProper_lines nested depth (fun name hname => h name (names_subset_namesOf hd hname))
      line hline

end Declaration

end IdlTypings.Ts
