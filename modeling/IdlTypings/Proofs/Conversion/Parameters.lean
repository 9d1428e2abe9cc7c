import IdlTypings.Proofs.Conversion.Contribution
import Mathlib.Data.List.Nodup

/-!
# Parameters that can be declared

What an interface definition demands of an argument list makes the parameters declarable, but for
one thing. Each argument becomes the parameter in its place, and its flags are kept except that a
variadic argument is not optional. The names of the parameters are those of the arguments, with an
underscore after a reserved word. This is decided for each name alone: an argument whose name is a
reserved word clashes with one that has the underscore already.
-/

namespace IdlTypings.Idl

/-- What an interface definition demands of the arguments of one list. -/
structure LegalArguments (arguments : List Argument) : Prop where
  distinct : (arguments.map Argument.name).Nodup
  requiredFirst : arguments.Pairwise fun a b =>
    a.optional = true → b.optional = true ∨ b.variadic = true
  variadicLast : ∀ a ∈ arguments.dropLast, a.variadic = false

/-- The arguments that are written in parentheses after the name of a member. An operation without
a name has none, unless the definition has no name either. -/
def Member.arguments? (owner : String) : Member → Option (List Argument)
  | .construct arguments => some arguments
  | .operation op => if op.name = owner ∨ op.name ≠ "" then some op.arguments else none
  | _ => none

end IdlTypings.Idl

namespace IdlTypings.Ts

open Conversion (reservedWords)

/-- What strict code demands of the parameters of one list, their different names left aside. -/
structure OrderlyParams (params : List Param) : Prop where
  unreserved : ∀ p ∈ params, p.name ∉ reservedWords
  requiredFirst : params.Pairwise fun p q => p.optional = true → q.optional = true ∨ q.rest = true
  restLast : ∀ p ∈ params.dropLast, p.rest = false
  exclusive : ∀ p ∈ params, ¬(p.optional = true ∧ p.rest = true)

structure LegalParams (params : List Param) : Prop extends OrderlyParams params where
  distinct : (params.map Param.name).Nodup

def Member.params? : Member → Option (List Param)
  | .method m => some m.params
  | .constructSignature params _ => some params
  | .classConstructor params => some params
  | .property _ | .index _ => none

end IdlTypings.Ts

namespace IdlTypings.Conversion

open Idl (LegalArguments)
open Ts (OrderlyParams LegalParams)

/-! ### Names -/

theorem getLast?_of_reserved : ∀ w ∈ reservedWords, w.toList.getLast? ≠ some '_' := by
  decide

theorem append_underscore_notMem (name : String) : name ++ "_" ∉ reservedWords := by
  intro hreserved
  apply getLast?_of_reserved (name ++ "_") hreserved
  rw [String.toList_append]
  exact List.getLast?_concat

theorem paramName_notMem (name : String) : paramName name ∉ reservedWords := by
  unfold paramName
  split
  · exact append_underscore_notMem name
  · rename_i hfree
    exact hfree

/-- Two names that become one are a reserved word and that word with its underscore. -/
theorem paramName_eq_iff {a b : String} :
    paramName a = paramName b ↔
      a = b ∨ a ∈ reservedWords ∧ b = a ++ "_" ∨ b ∈ reservedWords ∧ a = b ++ "_" := by
  constructor
  · intro h
    unfold paramName at h
    by_cases ha : a ∈ reservedWords <;> by_cases hb : b ∈ reservedWords
    · rw [if_pos ha, if_pos hb] at h
      exact .inl ((String.append_left_inj _).mp h)
    · rw [if_pos ha, if_neg hb] at h
      exact .inr (.inl ⟨ha, h.symm⟩)
    · rw [if_neg ha, if_pos hb] at h
      exact .inr (.inr ⟨hb, h⟩)
    · rw [if_neg ha, if_neg hb] at h
      exact .inl h
  · have hescape : ∀ w ∈ reservedWords, paramName w = paramName (w ++ "_") := by
      intro w hw
      rw [paramName, if_pos hw, paramName, if_neg (append_underscore_notMem w)]
    rintro (rfl | ⟨ha, rfl⟩ | ⟨hb, rfl⟩)
    · rfl
    · exact hescape a ha
    · exact (hescape b hb).symm

/-- Among the names is a reserved word together with the word that replaces it. -/
def HasClash (names : List String) : Prop :=
  ∃ w ∈ reservedWords, w ∈ names ∧ w ++ "_" ∈ names

theorem nodup_map_paramName_iff {names : List String} (h : names.Nodup) :
    (names.map paramName).Nodup ↔ ¬HasClash names := by
  rw [List.nodup_map_iff_inj_on h]
  constructor
  · rintro hinjective ⟨w, hw, hmem, hescape⟩
    have heq : w = w ++ "_" :=
      hinjective w hmem (w ++ "_") hescape (paramName_eq_iff.mpr (.inr (.inl ⟨hw, rfl⟩)))
    exact append_underscore_notMem w (heq ▸ hw)
  · intro hclash a ha b hb heq
    obtain rfl | ⟨hreserved, rfl⟩ | ⟨hreserved, rfl⟩ := paramName_eq_iff.mp heq
    · rfl
    · exact absurd ⟨a, hreserved, ha, hb⟩ hclash
    · exact absurd ⟨b, hreserved, hb, ha⟩ hclash

/-! ### One list -/

section Lists

variable (owner : Option String)

theorem result_params (arguments : List Idl.Argument) :
    (params owner arguments).result = arguments.map fun a => (a.toParam owner).result :=
  Noted.result_each _ _

theorem names_params (arguments : List Idl.Argument) :
    (params owner arguments).result.map Ts.Param.name =
      (arguments.map Idl.Argument.name).map paramName := by
  rw [result_params, List.map_map, List.map_map]
  rfl

theorem flags_params (arguments : List Idl.Argument) :
    (params owner arguments).result.map (fun p => (p.optional, p.rest)) =
      arguments.map fun a => (a.optional && !a.variadic, a.variadic) := by
  rw [result_params, List.map_map]
  rfl

theorem orderlyParams_params {arguments : List Idl.Argument} (h : LegalArguments arguments) :
    OrderlyParams (params owner arguments).result := by
  rw [result_params]
  refine ⟨?_, ?_, ?_, ?_⟩
  · intro p hp
    obtain ⟨a, -, rfl⟩ := List.mem_map.mp hp
    exact paramName_notMem a.name
  · apply List.pairwise_map.mpr
    refine h.requiredFirst.imp ?_
    intro a b hfollows hoptional
    have ha : a.optional = true := (Bool.and_eq_true_iff.mp hoptional).1
    change (b.optional && !b.variadic) = true ∨ b.variadic = true
    obtain hb | hb := hfollows ha
    · cases hvariadic : b.variadic with
      | true => exact .inr rfl
      | false =>
          left
          rw [hb]
          rfl
    · exact .inr hb
  · intro p hp
    rw [← List.map_dropLast] at hp
    obtain ⟨a, ha, rfl⟩ := List.mem_map.mp hp
    exact h.variadicLast a ha
  · intro p hp
    obtain ⟨a, -, rfl⟩ := List.mem_map.mp hp
    rintro ⟨hoptional, hrest⟩
    have hvariadic : a.variadic = true := hrest
    have hnotVariadic : (!a.variadic) = true := (Bool.and_eq_true_iff.mp hoptional).2
    rw [hvariadic] at hnotVariadic
    exact Bool.false_ne_true hnotVariadic

theorem legalParams_params_iff {arguments : List Idl.Argument} (h : LegalArguments arguments) :
    LegalParams (params owner arguments).result ↔
      ¬HasClash (arguments.map Idl.Argument.name) := by
  rw [← nodup_map_paramName_iff h.distinct, ← names_params owner]
  constructor
  · intro hlegal
    exact hlegal.distinct
  · intro hdistinct
    exact ⟨orderlyParams_params owner h, hdistinct⟩

end Lists

/-! ### Where parameters are written -/

theorem params_constructBlock (mode : Mode) (ctx : Context) (arguments : List Idl.Argument) :
    (constructBlock mode ctx arguments).result.members.filterMap Ts.Member.params? =
      [(params (some ctx.owner) arguments).result] := by
  cases mode <;> rfl

theorem params_methodBlock (ctx : Context) (op : Idl.Operation) :
    (methodBlock ctx op).result.members.filterMap Ts.Member.params? =
      [(params (some ctx.owner) op.arguments).result] := rfl

/-- Methods and both forms of constructors show the parameters of one argument list. -/
theorem params_contribution (mode : Mode) (d : Idl.Definition) {m : Idl.Member}
    {arguments : List Idl.Argument} (h : m.arguments? d.name = some arguments) :
    (contribution mode d m).filterMap Ts.Member.params? =
      [(params (some d.name) arguments).result] := by
  cases m with
  | construct arguments =>
      cases h
      exact params_constructBlock mode (.of d) _
  | operation op =>
      simp only [Idl.Member.arguments?, Option.ite_none_right_eq_some, Option.some.injEq] at h
      obtain ⟨hnamed, rfl⟩ := h
      simp only [contribution, memberBlock, operationBlock]
      by_cases howner : op.name = (Context.of d).owner
      · rw [if_pos howner]
        exact params_constructBlock mode (.of d) op.arguments
      · have hname : op.name ≠ "" := hnamed.resolve_left howner
        rw [if_neg howner, if_neg hname]
        exact params_methodBlock (.of d) op
  | _ => cases h

/-- The parameters stand in the places of the arguments and can be declared, except that two names
clash if one is a reserved word and the other is what it is replaced by. -/
structure Renders (arguments : List Idl.Argument) (params : List Ts.Param) : Prop where
  names : params.map Ts.Param.name = (arguments.map Idl.Argument.name).map paramName
  flags : params.map (fun p => (p.optional, p.rest)) =
    arguments.map fun a => (a.optional && !a.variadic, a.variadic)
  orderly : OrderlyParams params
  legal_iff : LegalParams params ↔ ¬HasClash (arguments.map Idl.Argument.name)

/-- **Parameters.** The parameters of a legal argument list stand in the places of the arguments, no
required one behind an optional one, with a rest parameter at most at the end, and under names that
are not reserved. They are legal exactly if no argument has the name that is given to another one in
place of a reserved word. This holds wherever arguments are converted: for the operations and
constructors of a definition, in either mode, and for callbacks. -/
theorem renders_of_legalArguments {arguments : List Idl.Argument} (h : LegalArguments arguments) :
    (∀ owner : Option String, Renders arguments (params owner arguments).result) ∧
    (∀ (mode : Mode) (d : Idl.Definition) (m : Idl.Member),
      m.arguments? d.name = some arguments →
      ∃ params, (contribution mode d m).filterMap Ts.Member.params? = [params] ∧
        Renders arguments params) ∧
    (∀ (mode : Mode) (name : String) (returns : Idl.TypeExpr),
      ∃ params type, (convert mode [.callback name returns arguments]).declarations =
          [.aliasDecl name (.function params type)] ∧
        Renders arguments params) := by
  have hrenders : ∀ owner : Option String, Renders arguments (params owner arguments).result := by
    intro owner
    exact ⟨names_params owner arguments, flags_params owner arguments,
      orderlyParams_params owner h, legalParams_params_iff owner h⟩
  refine ⟨hrenders, ?_, ?_⟩
  · intro mode d m hm
    exact ⟨_, params_contribution mode d hm, hrenders (some d.name)⟩
  · intro mode name returns
    exact ⟨_, _, rfl, hrenders (some name)⟩

/-- A reserved word, a name that looks like a replaced one, and another reserved word for a variadic
argument that is called optional too. -/
def queryArguments : List Idl.Argument :=
  [⟨"in", .named "Node" false, false, false⟩,
    ⟨"class_", .named "DOMString" true, true, false⟩,
    ⟨"with", .named "DOMString" false, true, true⟩]

def query : Idl.Definition where
  name := "Query"
  inheritance := none
  members := [.operation ⟨"Query", queryArguments, .named "Query" false, none⟩]
  extAttrs := .ofList []

theorem legalParams_query :
    LegalArguments queryArguments ∧
      (∃ params, (query.members.flatMap (contribution .runtime query)).filterMap
          Ts.Member.params? = [params] ∧
        LegalParams params ∧ params.map Ts.Param.name = ["in_", "class_", "with_"]) ∧
      ∃ params type, (convert .ambient [.callback "QueryCallback" (.named "void" false)
          queryArguments]).declarations = [.aliasDecl "QueryCallback" (.function params type)] ∧
        LegalParams params := by
  have hlegal : LegalArguments queryArguments := by
    refine ⟨by decide, ?_, by decide⟩
    simp [queryArguments]
  have hfree : ¬HasClash (queryArguments.map Idl.Argument.name) := by
    unfold HasClash
    decide
  obtain ⟨-, hmembers, hcallbacks⟩ := renders_of_legalArguments hlegal
  refine ⟨hlegal, ?_, ?_⟩
  · obtain ⟨params, hparams, hrenders⟩ := hmembers .runtime query
      (.operation ⟨"Query", queryArguments, .named "Query" false, none⟩) rfl
    exact ⟨params, hparams, hrenders.legal_iff.mpr hfree, hrenders.names⟩
  · obtain ⟨params, type, hdeclarations, hrenders⟩ :=
      hcallbacks .ambient "QueryCallback" (.named "void" false)
    exact ⟨params, type, hdeclarations, hrenders.legal_iff.mpr hfree⟩

/-- A reserved word and a name with an underscore, which an interface definition tells apart. -/
def styleArguments : List Idl.Argument :=
  [⟨"class", .named "DOMString" false, false, false⟩,
    ⟨"class_", .named "DOMString" false, false, false⟩]

/-- Legal arguments can have parameters of one name, namely a reserved word and its replacement. -/
theorem not_forall_legalParams :
    ¬∀ (owner : Option String) (arguments : List Idl.Argument), LegalArguments arguments →
      LegalParams (params owner arguments).result := by
  intro h
  have hlegal : LegalArguments styleArguments := by
    refine ⟨by decide, ?_, by decide⟩
    simp [styleArguments]
  have hdistinct := (h none styleArguments hlegal).distinct
  have hnames : (params none styleArguments).result.map Ts.Param.name = ["class_", "class_"] := rfl
  rw [hnames] at hdistinct
  simp at hdistinct

end IdlTypings.Conversion
