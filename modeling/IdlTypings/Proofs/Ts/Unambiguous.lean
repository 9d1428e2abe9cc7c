import IdlTypings.Proofs.Ts.TypeReader

/-!
# Types are unambiguous

The reader of types finds in the text of a type its normal form, whatever type encloses it. So the
text determines the normal form.
-/

namespace IdlTypings.Ts

/-- What stands behind a type: nothing, or a mark of the type around it. -/
def EndsType (rest : List Char) : Prop :=
  ∀ c ∈ rest.head?, c ∈ [',', '>', ']', ')']

/-- What stands behind an alternative, and what it is read as: the end of the type or a bar and
further alternatives. -/
inductive Continues : List Char → List TypeExpr → List Char → Prop where
  | ends {rest : List Char} (h : EndsType rest) : Continues rest [] rest
  | bar {text rest : List Char} {alternatives : List TypeExpr}
      (h : Reads readAlternatives text (alternatives, rest)) :
      Continues (' ' :: '|' :: ' ' :: text) alternatives rest

variable {behind rest : List Char} {alternatives : List TypeExpr}

theorem endsType_nil : EndsType [] := by
  intro c hc
  simp at hc

theorem EndsType.cons {c : Char} (h : c ∈ [',', '>', ']', ')']) (rest : List Char) :
    EndsType (c :: rest) := by
  intro d hd
  rw [List.head?_cons, Option.mem_some_iff] at hd
  rwa [← hd]

theorem EndsType.endsName (h : EndsType rest) : EndsName rest := by
  cases rest with
  | nil => exact ⟨by simp [EndsWord], fun _ => rfl, by simp⟩
  | cons c rest =>
      have hmem : c ∈ [',', '>', ']', ')'] := h c rfl
      have hmarks : [',', '>', ']', ')'].all (fun c => !isWordChar c) = true := by decide
      have hword : isWordChar c = false := by simpa using List.all_eq_true.mp hmarks c hmem
      refine ⟨.cons hword rest, ?_, ?_⟩
      · intro name
        rw [readQuery]
        rintro more heq
        obtain ⟨rfl, -⟩ := List.cons.inj heq
        exact absurd hmem (by decide)
      · intro more heq
        obtain ⟨rfl, -⟩ := List.cons.inj heq
        exact absurd hmem (by decide)

theorem Continues.endsName (h : Continues behind alternatives rest) : EndsName behind := by
  cases h with
  | ends h => exact h.endsName
  | bar _ =>
      refine ⟨.cons (by decide) _, ?_, by simp⟩
      intro name
      simp [readQuery, readName_eq_none (c := '|') (by decide)]

theorem reads_alternatives {text : List Char} {alternative : TypeExpr}
    (h : Reads readAlternative text (alternative, behind))
    (hbehind : Continues behind alternatives rest) :
    Reads readAlternatives text (alternative :: alternatives, rest) := by
  cases hbehind with
  | bar hmore =>
      refine h.of_calls hmore fun fuel h hmore => ?_
      simp [readAlternatives, h, hmore]
  | ends hends =>
      refine h.of_call fun fuel h => ?_
      simp only [readAlternatives, h, Option.bind_eq_bind, Option.bind_some]
      split
      · exact absurd (hends ' ' rfl) (by decide)
      · rfl

def TypeExpr.memberText (member : TypeExpr) : String :=
  if member.isFunction then "(" ++ member.text ++ ")" else member.text

theorem TypeExpr.memberText_of_not_function {type : TypeExpr} (h : type.isFunction = false) :
    type.memberText = type.text := by
  rw [memberText, h, if_neg Bool.false_ne_true]

/-- The text of a type is read back as its alternatives, where the type stands alone and where it
is a member of a union. -/
structure ReadsBack (type : TypeExpr) : Prop where
  alone : ∀ rest, EndsType rest →
    Reads readAlternatives (type.text.toList ++ rest) (type.alternatives, rest)
  member : ∀ behind alternatives rest, Continues behind alternatives rest →
    Reads readAlternatives (type.memberText.toList ++ behind)
      (type.alternatives ++ alternatives, rest)

theorem ReadsBack.of_not_function {type : TypeExpr} (hfunction : type.isFunction = false)
    (h : ∀ behind alternatives rest, Continues behind alternatives rest →
      Reads readAlternatives (type.text.toList ++ behind)
        (type.alternatives ++ alternatives, rest)) :
    ReadsBack type := by
  constructor
  · intro rest hrest
    simpa using h rest [] rest (.ends hrest)
  · rw [TypeExpr.memberText_of_not_function hfunction]
    exact h

theorem ReadsBack.of_alternative {type alternative : TypeExpr}
    (hfunction : type.isFunction = false) (halternatives : type.alternatives = [alternative])
    (h : ∀ behind, EndsName behind →
      Reads readAlternative (type.text.toList ++ behind) (alternative, behind)) :
    ReadsBack type := by
  refine .of_not_function hfunction fun behind alternatives rest hbehind => ?_
  rw [halternatives]
  exact reads_alternatives (h behind hbehind.endsName) hbehind

/-! ### Names and literals -/

theorem isWord_text (keyword : Keyword) : IsWord keyword.text := by
  cases keyword <;> decide

theorem isWord_never : IsWord "never" := by
  decide

theorem reads_alternative_name {name : String} (hname : IsWord name) (h : EndsName behind) :
    Reads readAlternative (name.toList ++ behind) (.name name, behind) :=
  reads_alternative_word hname (reads_named_name hname h)

theorem readsBack_keyword (keyword : Keyword) : ReadsBack (.keyword keyword) := by
  refine .of_alternative rfl rfl fun behind hbehind => ?_
  exact reads_alternative_name (isWord_text keyword) hbehind

theorem readsBack_stringLiteral (value : String) : ReadsBack (.stringLiteral value) := by
  refine .of_alternative rfl rfl fun behind _ => ?_
  exact reads_alternative_quote value behind

theorem readsBack_typeQuery {name : String} (hname : IsWord name) :
    ReadsBack (.typeQuery name) := by
  have htypeof : IsWord "typeof" := by decide
  refine .of_alternative rfl rfl fun behind hbehind => ?_
  have htext : (TypeExpr.typeQuery name).text.toList ++ behind =
      "typeof".toList ++ ' ' :: (name.toList ++ behind) := by
    simp [TypeExpr.text]
  rw [htext]
  exact reads_alternative_word htypeof (reads_named_query hname hbehind.word)

/-! ### Lists of types -/

theorem toList_commaSeparated_cons_cons (first second : String) (more : List String) :
    (commaSeparated (first :: second :: more)).toList =
      first.toList ++ ',' :: ' ' :: (commaSeparated (second :: more)).toList := by
  simp [commaSeparated, String.intercalate_cons_cons]

theorem reads_types {types : List TypeExpr} (hne : types ≠ [])
    (h : ∀ type ∈ types, ReadsBack type) {close : Char} (hclose : EndsType (close :: rest))
    (hcomma : close ≠ ',') :
    Reads readTypes ((commaSeparated (TypeExpr.texts types)).toList ++ close :: rest)
      (TypeExpr.normalForms types, close :: rest) := by
  induction types with
  | nil => exact absurd rfl hne
  | cons type types ih =>
      have htype := h type (List.mem_cons_self ..)
      cases types with
      | nil =>
          refine reads_types_singleton hcomma ?_
          rw [TypeExpr.texts, TypeExpr.texts, commaSeparated, String.intercalate_singleton]
          exact htype.alone _ hclose
      | cons next types =>
          have hmore := ih (by simp) fun other hmem => h other (List.mem_cons_of_mem _ hmem)
          refine reads_types_cons ?_ hmore
          rw [TypeExpr.texts, TypeExpr.texts, toList_commaSeparated_cons_cons, List.append_assoc]
          exact htype.alone _ (.cons (by decide) _)

theorem readsBack_reference {name : String} (hname : IsWord name) {args : List TypeExpr}
    (h : ∀ arg ∈ args, ReadsBack arg) : ReadsBack (.reference name args) := by
  refine .of_alternative rfl rfl fun behind hbehind => ?_
  by_cases hargs : args = []
  · subst hargs
    exact reads_alternative_name hname hbehind
  · have htext : (TypeExpr.reference name args).text.toList ++ behind =
        name.toList ++ '<' :: ((commaSeparated (TypeExpr.texts args)).toList ++ '>' :: behind) := by
      simp [TypeExpr.text, hargs]
    have htypes := reads_types hargs h (.cons (c := '>') (by decide) behind) (by decide)
    rw [htext]
    exact reads_alternative_word hname (reads_named_args hname htypes)

theorem readsBack_tuple {elements : List TypeExpr} (h : ∀ element ∈ elements, ReadsBack element) :
    ReadsBack (.tuple elements) := by
  refine .of_alternative rfl rfl fun behind _ => ?_
  by_cases helements : elements = []
  · subst helements
    exact reads_alternative_brackets behind
  · have htext : (TypeExpr.tuple elements).text.toList ++ behind =
        '[' :: ((commaSeparated (TypeExpr.texts elements)).toList ++ ']' :: behind) := by
      simp [TypeExpr.text]
    have htypes := reads_types helements h (.cons (c := ']') (by decide) behind) (by decide)
    rw [htext]
    exact reads_alternative_tuple htypes

/-! ### Unions -/

theorem reads_members {members : List TypeExpr} (hne : members ≠ [])
    (h : ∀ member ∈ members, ReadsBack member) (hbehind : Continues behind alternatives rest) :
    Reads readAlternatives
      ((" | ".intercalate (TypeExpr.memberTexts members)).toList ++ behind)
      (TypeExpr.alternativesOf members ++ alternatives, rest) := by
  induction members with
  | nil => exact absurd rfl hne
  | cons member members ih =>
      have hmember := h member (List.mem_cons_self ..)
      cases members with
      | nil =>
          have htext : " | ".intercalate (TypeExpr.memberTexts [member]) = member.memberText :=
            String.intercalate_singleton
          rw [htext, TypeExpr.alternativesOf, TypeExpr.alternativesOf, List.append_nil]
          exact hmember.member _ _ _ hbehind
      | cons next members =>
          have hmore := ih (by simp) fun other hmem => h other (List.mem_cons_of_mem _ hmem)
          have htext : " | ".intercalate (TypeExpr.memberTexts (member :: next :: members)) =
              member.memberText ++ " | " ++
                " | ".intercalate (TypeExpr.memberTexts (next :: members)) :=
            String.intercalate_cons_cons
          rw [htext, TypeExpr.alternativesOf, List.append_assoc, String.toList_append,
            String.toList_append, List.append_assoc, List.append_assoc]
          exact hmember.member _ _ _ (.bar hmore)

theorem readsBack_union {members : List TypeExpr} (h : ∀ member ∈ members, ReadsBack member) :
    ReadsBack (.union members) := by
  by_cases hmembers : members = []
  · subst hmembers
    refine .of_alternative rfl rfl fun behind hbehind => ?_
    exact reads_alternative_name isWord_never hbehind
  · refine .of_not_function rfl fun behind alternatives rest hbehind => ?_
    have htext : (TypeExpr.union members).text =
        " | ".intercalate (TypeExpr.memberTexts members) := by
      simp [TypeExpr.text, hmembers]
    rw [htext, TypeExpr.alternatives_union hmembers]
    exact reads_members hmembers h hbehind

/-! ### Functions -/

theorem reads_param_text {param : Param} (hname : IsWord param.name)
    (htype : ReadsBack param.type) (hrest : EndsType rest) :
    Reads readParam (param.text.toList ++ rest) (param.normalForm, rest) := by
  obtain ⟨name, type, optional, spread⟩ := param
  have htext : (Param.text ⟨name, type, optional, spread⟩).toList ++ rest =
      (if spread then "..." else "").toList ++ (name.toList ++
        ((if optional then "?" else "").toList ++ ':' :: ' ' :: (type.text.toList ++ rest))) := by
    simp [Param.text]
  rw [htext]
  exact reads_param hname spread optional (htype.alone rest hrest)

theorem reads_params {params : List Param}
    (h : ∀ param ∈ params, IsWord param.name ∧ ReadsBack param.type) (rest : List Char) :
    Reads readParams ((commaSeparated (Param.texts params)).toList ++ ')' :: rest)
      (Param.normalForms params, ')' :: rest) := by
  induction params with
  | nil => exact reads_params_nil rest
  | cons param params ih =>
      obtain ⟨hname, htype⟩ := h param (List.mem_cons_self ..)
      cases params with
      | nil =>
          refine reads_params_singleton ?_
          rw [Param.texts, Param.texts, commaSeparated, String.intercalate_singleton]
          exact reads_param_text hname htype (.cons (by decide) rest)
      | cons next params =>
          have hmore := ih fun other hmem => h other (List.mem_cons_of_mem _ hmem)
          refine reads_params_cons ?_ hmore
          rw [Param.texts, Param.texts, toList_commaSeparated_cons_cons, List.append_assoc]
          exact reads_param_text hname htype (.cons (by decide) _)

/-- The text of a function after its opening parenthesis. -/
def functionBody (params : List Param) (returns : TypeExpr) : List Char :=
  (commaSeparated (Param.texts params)).toList ++
    ')' :: ' ' :: '=' :: '>' :: ' ' :: returns.text.toList

theorem toList_text_function (params : List Param) (returns : TypeExpr) :
    (TypeExpr.function params returns).text.toList = '(' :: functionBody params returns := by
  simp [TypeExpr.text, functionBody]

theorem toList_memberText_function (params : List Param) (returns : TypeExpr) :
    (TypeExpr.function params returns).memberText.toList =
      '(' :: '(' :: (functionBody params returns ++ [')']) := by
  rw [TypeExpr.memberText, TypeExpr.isFunction, if_pos rfl, String.toList_append,
    String.toList_append, toList_text_function]
  rfl

theorem reads_functionBody {params : List Param} {returns : TypeExpr}
    (hparams : ∀ param ∈ params, IsWord param.name ∧ ReadsBack param.type)
    (hreturns : ReadsBack returns) (hrest : EndsType rest) :
    Reads readFunction (functionBody params returns ++ rest)
      (.function (Param.normalForms params) (.ofAlternatives returns.alternatives), rest) := by
  rw [functionBody, List.append_assoc]
  exact reads_function (reads_params hparams _) (hreturns.alone rest hrest)

theorem readsBack_function {params : List Param} {returns : TypeExpr}
    (hparams : ∀ param ∈ params, IsWord param.name ∧ ReadsBack param.type)
    (hreturns : ReadsBack returns) : ReadsBack (.function params returns) := by
  constructor
  · intro rest hrest
    rw [toList_text_function]
    have hread := reads_functionBody hparams hreturns hrest
    exact reads_alternatives (reads_alternative_function hread) (.ends hrest)
  · intro behind alternatives rest hbehind
    rw [toList_memberText_function, List.cons_append, List.cons_append, List.append_assoc]
    have hread := reads_functionBody hparams hreturns (.cons (c := ')') (by decide) behind)
    exact reads_alternatives (reads_alternative_parentheses hread) hbehind

/-! ### Every type is read back -/

mutual

theorem readsBack : ∀ {type : TypeExpr}, type.HasWordNames → ReadsBack type
  | .keyword keyword, _ => readsBack_keyword keyword
  | .reference _ _, h => readsBack_reference h.1 (readsBack_all h.2)
  | .union _, h => readsBack_union (readsBack_all h)
  | .stringLiteral value, _ => readsBack_stringLiteral value
  | .tuple _, h => readsBack_tuple (readsBack_all h)
  | .function _ _, h => readsBack_function (readsBack_params h.1) (readsBack h.2)
  | .typeQuery _, h => readsBack_typeQuery h
termination_by structural type => type

theorem readsBack_all : ∀ {types : List TypeExpr}, TypeExpr.HaveWordNames types →
    ∀ type ∈ types, ReadsBack type
  | [], _ => by simp
  | _ :: _, h => List.forall_mem_cons.mpr ⟨readsBack h.1, readsBack_all h.2⟩
termination_by structural types => types

theorem readsBack_param : ∀ {param : Param}, param.HasWordNames →
    IsWord param.name ∧ ReadsBack param.type
  | ⟨_, _, _, _⟩, h => ⟨h.1, readsBack h.2⟩
termination_by structural param => param

theorem readsBack_params : ∀ {params : List Param}, Param.HaveWordNames params →
    ∀ param ∈ params, IsWord param.name ∧ ReadsBack param.type
  | [], _ => by simp
  | _ :: _, h => List.forall_mem_cons.mpr ⟨readsBack_param h.1, readsBack_params h.2⟩
termination_by structural params => params

end

/-! ### Functions and unions -/

/-- The text begins with a parenthesis that encloses parameters, not a member of a union. -/
def opensFunction : List Char → Bool
  | '(' :: rest => rest.head? ≠ some '('
  | _ => false

theorem opensFunction_of_ne {c : Char} (h : c ≠ '(') (rest : List Char) :
    opensFunction (c :: rest) = false := by
  rw [opensFunction]
  intro more heq
  exact h (List.cons.inj heq).1

theorem opensFunction_word {name : String} (hname : IsWord name) (rest : List Char) :
    opensFunction (name.toList ++ rest) = false := by
  obtain ⟨c, chars, hchars, hc⟩ := hname.exists_cons
  rw [hchars]
  exact opensFunction_of_ne (ne_of_isWordChar hc (by decide)) (chars ++ rest)

theorem opensFunction_functionBody {params : List Param} {returns : TypeExpr}
    (hparams : ∀ param ∈ params, IsWord param.name ∧ ReadsBack param.type)
    (hreturns : ReadsBack returns) : opensFunction ('(' :: functionBody params returns) = true := by
  have hread := reads_functionBody hparams hreturns endsType_nil
  rw [List.append_nil] at hread
  have hparen : ∀ rest, functionBody params returns ≠ '(' :: rest := fun rest =>
    hread.ne_of_forall_none (readFunction_paren rest)
  rw [opensFunction, decide_eq_true_eq]
  intro hhead
  cases hbody : functionBody params returns with
  | nil => simp [hbody] at hhead
  | cons c rest =>
      rw [hbody, List.head?_cons, Option.some.injEq] at hhead
      exact hparen rest (by rw [hbody, hhead])

theorem exists_text_reference (name : String) (args : List TypeExpr) :
    ∃ more, (TypeExpr.reference name args).text = name ++ more := by
  by_cases hargs : args = []
  · exact ⟨"", by simp [TypeExpr.text, hargs]⟩
  · exact ⟨"<" ++ commaSeparated (TypeExpr.texts args) ++ ">", by
      simp [TypeExpr.text, hargs, String.append_assoc]⟩

theorem exists_text_union_cons (member : TypeExpr) (members : List TypeExpr) :
    ∃ more, (TypeExpr.union (member :: members)).text = member.memberText ++ more := by
  cases members with
  | nil => exact ⟨"", by simp [TypeExpr.text, TypeExpr.memberTexts, TypeExpr.memberText]⟩
  | cons next members =>
      refine ⟨" | " ++ " | ".intercalate (TypeExpr.memberTexts (next :: members)), ?_⟩
      rw [← String.append_assoc]
      exact String.intercalate_cons_cons

/-- A member of a union is never taken for a function that stands alone. -/
theorem opensFunction_memberText : ∀ {type : TypeExpr}, type.HasWordNames →
    ∀ rest, opensFunction (type.memberText.toList ++ rest) = false
  | .keyword keyword, _, rest => opensFunction_word (isWord_text keyword) rest
  | .reference name args, h, rest => by
      obtain ⟨more, htext⟩ := exists_text_reference name args
      rw [TypeExpr.memberText_of_not_function rfl, htext, String.toList_append, List.append_assoc]
      exact opensFunction_word h.1 _
  | .union [], _, rest => opensFunction_word isWord_never rest
  | .union (member :: members), h, rest => by
      obtain ⟨more, htext⟩ := exists_text_union_cons member members
      rw [TypeExpr.memberText_of_not_function rfl, htext, String.toList_append, List.append_assoc]
      exact opensFunction_memberText h.1 _
  | .stringLiteral value, _, rest => by
      rw [TypeExpr.memberText_of_not_function rfl, TypeExpr.text, Json.quote, String.toList_ofList]
      exact opensFunction_of_ne (by decide) _
  | .tuple elements, _, rest => by
      rw [TypeExpr.memberText_of_not_function rfl, TypeExpr.text, String.toList_append,
        String.toList_append, List.append_assoc, List.append_assoc]
      exact opensFunction_of_ne (c := '[') (by decide) _
  | .function params returns, _, rest => by
      rw [toList_memberText_function]
      rfl
  | .typeQuery name, _, rest => by
      rw [TypeExpr.memberText_of_not_function rfl, TypeExpr.text, String.toList_append,
        List.append_assoc]
      exact opensFunction_of_ne (c := 't') (by decide) _

theorem opensFunction_text {type : TypeExpr} (h : type.HasWordNames) :
    opensFunction type.text.toList = type.isFunction := by
  cases hfunction : type.isFunction with
  | false =>
      rw [← TypeExpr.memberText_of_not_function hfunction,
        ← List.append_nil type.memberText.toList]
      exact opensFunction_memberText h []
  | true =>
      cases type with
      | function params returns =>
          rw [toList_text_function]
          exact opensFunction_functionBody (readsBack_params h.1) (readsBack h.2)
      | _ => exact absurd hfunction Bool.false_ne_true

theorem alternatives_eq_of_text_eq {t u : TypeExpr} (ht : t.HasWordNames) (hu : u.HasWordNames)
    (h : t.text = u.text) : t.alternatives = u.alternatives := by
  have htread := (readsBack ht).alone [] endsType_nil
  have huread := (readsBack hu).alone [] endsType_nil
  rw [h] at htread
  exact congrArg Prod.fst (htread.unique huread)

/-- **The text of a type determines its normal form.** It also tells functions from all other
types, so no union with a function in it is spelled like a function that returns a union, and it
determines the values, the counts and the flags that the type was built with. -/
theorem normalForm_eq_of_text_eq {t u : TypeExpr} (ht : t.HasWordNames) (hu : u.HasWordNames)
    (h : t.text = u.text) :
    t.normalForm = u.normalForm ∧ t.isFunction = u.isFunction ∧ t.headings = u.headings := by
  have halternatives := alternatives_eq_of_text_eq ht hu h
  refine ⟨?_, ?_, ?_⟩
  · rw [TypeExpr.normalForm, TypeExpr.normalForm, halternatives]
  · rw [← opensFunction_text ht, ← opensFunction_text hu, h]
  · rw [TypeExpr.headings_eq_flatMap t, TypeExpr.headings_eq_flatMap u, halternatives]

/-- `((x?: string) => void) | string | Map<never>`, built with a union inside of a union. -/
def nestedUnion : TypeExpr :=
  .union [.union [.function [⟨"x", .string, true, false⟩] .void, .string],
    .reference "Map" [.union []]]

/-- The same text, built without keywords and with one union only. -/
def flatUnion : TypeExpr :=
  .union [.function [⟨"x", .name "string", true, false⟩] (.name "void"), .name "string",
    .reference "Map" [.name "never"]]

theorem normalForm_nestedUnion :
    nestedUnion.HasWordNames ∧ flatUnion.HasWordNames ∧ nestedUnion.text = flatUnion.text ∧
      nestedUnion.normalForm = flatUnion.normalForm ∧
      nestedUnion.isFunction = flatUnion.isFunction ∧
      nestedUnion.headings = flatUnion.headings := by
  have hnested : nestedUnion.HasWordNames := by
    simp only [nestedUnion, TypeExpr.HasWordNames, TypeExpr.HaveWordNames, Param.HasWordNames,
      Param.HaveWordNames, TypeExpr.string, TypeExpr.void]
    decide
  have hflat : flatUnion.HasWordNames := by
    simp only [flatUnion, TypeExpr.HasWordNames, TypeExpr.HaveWordNames, Param.HasWordNames,
      Param.HaveWordNames, TypeExpr.name]
    decide
  have htext : nestedUnion.text = flatUnion.text := by decide
  exact ⟨hnested, hflat, htext, normalForm_eq_of_text_eq hnested hflat htext⟩

end IdlTypings.Ts
