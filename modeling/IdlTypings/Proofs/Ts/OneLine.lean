import IdlTypings.Ts.Printer
import Mathlib.Tactic.SplitIfs

/-!
# Texts on one line

A line feed gets into the text of a type, of a member or of the head of a declaration through a name
only. String literals are free: their line feeds are escaped.
-/

namespace IdlTypings.Ts

mutual

/-- The names of references, parameters and queries, all that is not quoted. -/
def TypeExpr.names : TypeExpr → List String
  | .keyword _ => []
  | .reference name args => name :: TypeExpr.namesOf args
  | .union members => TypeExpr.namesOf members
  | .stringLiteral _ => []
  | .tuple elements => TypeExpr.namesOf elements
  | .function params returns => Param.namesOf params ++ returns.names
  | .typeQuery name => [name]
termination_by structural type => type

def TypeExpr.namesOf : List TypeExpr → List String
  | [] => []
  | type :: rest => type.names ++ TypeExpr.namesOf rest
termination_by structural types => types

def Param.names : Param → List String
  | ⟨name, type, _, _⟩ => name :: type.names
termination_by structural param => param

def Param.namesOf : List Param → List String
  | [] => []
  | param :: rest => param.names ++ Param.namesOf rest
termination_by structural params => params

end

/-- What a member goes by, without the brackets of a computed name. -/
def MemberName.word : MemberName → String
  | .identifier name => name
  | .computed expression => expression

def Member.names : Member → List String
  | .property p => p.name.word :: p.type.names
  | .method m => m.name.word :: Param.namesOf m.params ++ m.returns.names
  | .constructSignature params returns => Param.namesOf params ++ returns.names
  | .classConstructor params => Param.namesOf params
  | .index signature => signature.key :: signature.keyType.names ++ signature.valueType.names

mutual

/-- All names in a declaration. -/
def Declaration.names : Declaration → List String
  | .interfaceDecl name bases members =>
      name :: TypeExpr.namesOf bases ++ members.flatMap Member.names
  | .classDecl name bases members =>
      name :: TypeExpr.namesOf bases ++ members.flatMap Member.names
  | .aliasDecl name type => name :: type.names
  | .variableDecl name type _ => name :: type.names
  | .functionDecl name params returns => name :: Param.namesOf params ++ returns.names
  | .namespaceDecl name body => name :: Declaration.namesOf body
termination_by structural declaration => declaration

def Declaration.namesOf : List Declaration → List String
  | [] => []
  | declaration :: rest => declaration.names ++ Declaration.namesOf rest
termination_by structural declarations => declarations

end

theorem Declaration.names_subset_namesOf {declaration : Declaration}
    {declarations : List Declaration} (h : declaration ∈ declarations) :
    declaration.names ⊆ Declaration.namesOf declarations := by
  induction declarations with
  | nil => cases h
  | cons first rest ih =>
      intro name hname
      rw [namesOf, List.mem_append]
      rcases List.mem_cons.mp h with rfl | hrest
      · exact .inl hname
      · exact .inr (ih hrest hname)

/-! ### Without line feeds -/

def OneLine (text : String) : Prop := '\n' ∉ text.toList

instance : DecidablePred OneLine := fun text => inferInstanceAs (Decidable ('\n' ∉ text.toList))

theorem OneLine.append {first second : String} (hfirst : OneLine first) (hsecond : OneLine second) :
    OneLine (first ++ second) := by
  unfold OneLine at *
  rw [String.toList_append, List.mem_append, not_or]
  exact ⟨hfirst, hsecond⟩

theorem OneLine.intercalate {separator : String} (hseparator : OneLine separator)
    {texts : List String} (h : ∀ text ∈ texts, OneLine text) :
    OneLine (separator.intercalate texts) := by
  induction texts with
  | nil =>
      rw [String.intercalate_nil]
      decide
  | cons text texts ih =>
      obtain ⟨htext, htexts⟩ := List.forall_mem_cons.mp h
      cases texts with
      | nil =>
          rw [String.intercalate_singleton]
          exact htext
      | cons next more =>
          rw [String.intercalate_cons_cons]
          exact (htext.append hseparator).append (ih htexts)

theorem OneLine.commaSeparated {texts : List String} (h : ∀ text ∈ texts, OneLine text) :
    OneLine (commaSeparated texts) :=
  OneLine.intercalate (by decide) h

theorem OneLine.wordIf {word : String} (h : OneLine word) (present : Bool) :
    OneLine (wordIf present word) := by
  cases present with
  | false => exact List.not_mem_nil
  | true => exact h

theorem lineFeed_notMem_escapeChar (c : Char) : '\n' ∉ Json.escapeChar c := by
  have hcontrol : ∀ n < 32,
      '\n' ∉ ['\\', 'u', '0', '0', Json.hexDigit (n / 16), Json.hexDigit (n % 16)] := by decide
  unfold Json.escapeChar
  split_ifs with hmark hslash hbackspace hfeed hline hreturn htab hlow
  iterate 7
    · decide
  · exact hcontrol c.toNat hlow
  · rw [List.mem_singleton]
    exact Ne.symm hline

/-- A quoted string has no line feed, whatever string it is. -/
theorem oneLine_quote (value : String) : OneLine (Json.quote value) := by
  unfold OneLine Json.quote Json.quoteChars
  rw [String.toList_ofList, List.cons_append, List.mem_cons, List.mem_append, List.mem_flatMap]
  rintro (h | ⟨c, -, hc⟩ | h)
  · exact absurd h (by decide)
  · exact lineFeed_notMem_escapeChar c hc
  · exact absurd h (by decide)

theorem oneLine_keyword (keyword : Keyword) : OneLine keyword.text := by
  cases keyword <;> decide

mutual

theorem oneLine_type : ∀ type : TypeExpr, (∀ name ∈ type.names, OneLine name) → OneLine type.text
  | .keyword keyword, _ => oneLine_keyword keyword
  | .reference name args, h => by
      obtain ⟨hname, hargs⟩ := List.forall_mem_cons.mp h
      rw [TypeExpr.text]
      split
      · exact hname
      · exact ((hname.append (by decide)).append (.commaSeparated (oneLine_types args hargs))).append
          (by decide)
  | .union members, h => by
      rw [TypeExpr.text]
      split
      · decide
      · exact .intercalate (by decide) (oneLine_members members h)
  | .stringLiteral value, _ => oneLine_quote value
  | .tuple elements, h => by
      have helements := OneLine.commaSeparated (oneLine_types elements h)
      exact (OneLine.append (by decide) helements).append (by decide)
  | .function params returns, h => by
      obtain ⟨hparams, hreturns⟩ := List.forall_mem_append.mp h
      have hparams := OneLine.commaSeparated (oneLine_params params hparams)
      exact ((OneLine.append (by decide) hparams).append (by decide)).append
        (oneLine_type returns hreturns)
  | .typeQuery name, h => OneLine.append (by decide) (h name (List.mem_singleton_self name))
termination_by structural type => type

theorem oneLine_types : ∀ types : List TypeExpr, (∀ name ∈ TypeExpr.namesOf types, OneLine name) →
    ∀ text ∈ TypeExpr.texts types, OneLine text
  | [], _ => by simp [TypeExpr.texts]
  | type :: types, h => by
      obtain ⟨htype, htypes⟩ := List.forall_mem_append.mp h
      rw [TypeExpr.texts, List.forall_mem_cons]
      exact ⟨oneLine_type type htype, oneLine_types types htypes⟩
termination_by structural types => types

theorem oneLine_members : ∀ members : List TypeExpr,
    (∀ name ∈ TypeExpr.namesOf members, OneLine name) →
      ∀ text ∈ TypeExpr.memberTexts members, OneLine text
  | [], _ => by simp [TypeExpr.memberTexts]
  | member :: members, h => by
      obtain ⟨hmember, hmembers⟩ := List.forall_mem_append.mp h
      have hmember := oneLine_type member hmember
      rw [TypeExpr.memberTexts, List.forall_mem_cons]
      refine ⟨?_, oneLine_members members hmembers⟩
      split
      · exact (OneLine.append (by decide) hmember).append (by decide)
      · exact hmember
termination_by structural members => members

theorem oneLine_param : ∀ param : Param, (∀ name ∈ param.names, OneLine name) → OneLine param.text
  | ⟨name, type, optional, rest⟩, h => by
      obtain ⟨hname, htype⟩ := List.forall_mem_cons.mp h
      have hdots : OneLine (if rest then "..." else "") := OneLine.wordIf (by decide) rest
      have hmark : OneLine (if optional then "?" else "") := OneLine.wordIf (by decide) optional
      exact (((hdots.append hname).append hmark).append (by decide)).append (oneLine_type type htype)
termination_by structural param => param

theorem oneLine_params : ∀ params : List Param, (∀ name ∈ Param.namesOf params, OneLine name) →
    ∀ text ∈ Param.texts params, OneLine text
  | [], _ => by simp [Param.texts]
  | param :: params, h => by
      obtain ⟨hparam, hparams⟩ := List.forall_mem_append.mp h
      rw [Param.texts, List.forall_mem_cons]
      exact ⟨oneLine_param param hparam, oneLine_params params hparams⟩
termination_by structural params => params

end

theorem oneLine_paramsText {params : List Param} (h : ∀ name ∈ Param.namesOf params, OneLine name) :
    OneLine (paramsText params) :=
  .commaSeparated (oneLine_params params h)

theorem oneLine_typesText {types : List TypeExpr}
    (h : ∀ name ∈ TypeExpr.namesOf types, OneLine name) : OneLine (typesText types) :=
  .commaSeparated (oneLine_types types h)

theorem oneLine_memberName {name : MemberName} (h : OneLine name.word) : OneLine name.text := by
  cases name with
  | identifier name => exact h
  | computed expression => exact (OneLine.append (by decide) h).append (by decide)

theorem oneLine_member (member : Member) (h : ∀ name ∈ member.names, OneLine name) :
    OneLine member.text := by
  have hcolon : OneLine ": " := by decide
  have hreturn : OneLine "): " := by decide
  have hend : OneLine ";" := by decide
  cases member with
  | property p =>
      obtain ⟨hname, htype⟩ := List.forall_mem_cons.mp h
      have hstatic : OneLine (wordIf p.static "static ") := .wordIf (by decide) _
      have hreadonly : OneLine (wordIf p.readonly "readonly ") := .wordIf (by decide) _
      have hmark : OneLine (wordIf p.optional "?") := .wordIf (by decide) _
      have hhead := ((hstatic.append hreadonly).append (oneLine_memberName hname)).append hmark
      exact ((hhead.append hcolon).append (oneLine_type p.type htype)).append hend
  | method m =>
      obtain ⟨hhead, hreturns⟩ := List.forall_mem_append.mp h
      obtain ⟨hname, hparams⟩ := List.forall_mem_cons.mp hhead
      have hstatic : OneLine (wordIf m.static "static ") := .wordIf (by decide) _
      have hopen : OneLine "(" := by decide
      have hhead := (hstatic.append (oneLine_memberName hname)).append hopen
      have hparams := (hhead.append (oneLine_paramsText hparams)).append hreturn
      exact (hparams.append (oneLine_type m.returns hreturns)).append hend
  | constructSignature params returns =>
      obtain ⟨hparams, hreturns⟩ := List.forall_mem_append.mp h
      have hnew : OneLine "new (" := by decide
      have hparams := (hnew.append (oneLine_paramsText hparams)).append hreturn
      exact (hparams.append (oneLine_type returns hreturns)).append hend
  | classConstructor params =>
      exact (OneLine.append (by decide) (oneLine_paramsText h)).append (by decide)
  | index s =>
      obtain ⟨hhead, hvalue⟩ := List.forall_mem_append.mp h
      obtain ⟨hkey, hkeyType⟩ := List.forall_mem_cons.mp hhead
      have hreadonly : OneLine (wordIf s.readonly "readonly ") := .wordIf (by decide) _
      have hopen : OneLine "[" := by decide
      have hclose : OneLine "]: " := by decide
      have hkey := ((hreadonly.append hopen).append hkey).append hcolon
      have hkey := (hkey.append (oneLine_type s.keyType hkeyType)).append hclose
      exact (hkey.append (oneLine_type s.valueType hvalue)).append hend

end IdlTypings.Ts
