import IdlTypings.Ts.TypeText

/-!
# The normal form of a type

Types that differ in their build but not in their meaning have one normal form. In it no keyword
is left, and no union has less than two members or a union among them.
-/

namespace IdlTypings.Ts

/-- The characters that the text of a type has before, between and after its names. -/
def punctuation : List Char :=
  [' ', '"', '(', ')', ',', '.', ':', '<', '=', '>', '?', '[', ']', '|']

def isWordChar (c : Char) : Bool :=
  !punctuation.contains c

/-- Letters, digits, underscores and dollar signs make words, and so does all that is not
punctuation. -/
def IsWord (name : String) : Prop :=
  name ≠ "" ∧ name.toList.all isWordChar = true

instance : DecidablePred IsWord := fun name =>
  inferInstanceAs (Decidable (name ≠ "" ∧ name.toList.all isWordChar = true))

theorem isWordChar_of_isAlphanum {c : Char}
    (h : c.isAlphanum ∨ c = '_' ∨ c = '$' ∨ 128 ≤ c.toNat) : isWordChar c = true := by
  have hnone : punctuation.all (fun c =>
      !(c.isAlphanum || c == '_' || c == '$' || Nat.ble 128 c.toNat)) = true := rfl
  rw [isWordChar, Bool.not_eq_true', ← Bool.not_eq_true, List.contains_iff_mem]
  intro hmem
  have hc := List.all_eq_true.mp hnone c hmem
  simp only [Bool.not_eq_true', Bool.or_eq_false_iff, beq_eq_false_iff_ne] at hc
  obtain ⟨⟨⟨halphanum, hunderscore⟩, hdollar⟩, hascii⟩ := hc
  rcases h with h | h | h | h
  · rw [halphanum] at h
    exact absurd h Bool.false_ne_true
  · exact hunderscore h
  · exact hdollar h
  · rw [Nat.ble_eq_true_of_le h] at hascii
    exact absurd hascii.symm Bool.false_ne_true

mutual

/-- The names of references, parameters and queries are words. String literals are free. -/
def TypeExpr.HasWordNames : TypeExpr → Prop
  | .keyword _ => True
  | .reference name args => IsWord name ∧ TypeExpr.HaveWordNames args
  | .union members => TypeExpr.HaveWordNames members
  | .stringLiteral _ => True
  | .tuple elements => TypeExpr.HaveWordNames elements
  | .function params returns => Param.HaveWordNames params ∧ returns.HasWordNames
  | .typeQuery name => IsWord name
termination_by structural type => type

def TypeExpr.HaveWordNames : List TypeExpr → Prop
  | [] => True
  | type :: rest => type.HasWordNames ∧ TypeExpr.HaveWordNames rest
termination_by structural types => types

def Param.HasWordNames : Param → Prop
  | ⟨name, type, _, _⟩ => IsWord name ∧ type.HasWordNames
termination_by structural param => param

def Param.HaveWordNames : List Param → Prop
  | [] => True
  | param :: rest => param.HasWordNames ∧ Param.HaveWordNames rest
termination_by structural params => params

end

/-- A union of one member is the member. -/
def TypeExpr.ofAlternatives : List TypeExpr → TypeExpr
  | [type] => type
  | types => .union types

mutual

/-- The members of a type taken as a union, without unions among them. A keyword is a name, and so
is a union without members. -/
def TypeExpr.alternatives : TypeExpr → List TypeExpr
  | .keyword keyword => [.name keyword.text]
  | .reference name args => [.reference name (TypeExpr.normalForms args)]
  | .union members =>
      if members.isEmpty then [.name "never"] else TypeExpr.alternativesOf members
  | .stringLiteral value => [.stringLiteral value]
  | .tuple elements => [.tuple (TypeExpr.normalForms elements)]
  | .function params returns =>
      [.function (Param.normalForms params) (.ofAlternatives returns.alternatives)]
  | .typeQuery name => [.typeQuery name]
termination_by structural type => type

def TypeExpr.alternativesOf : List TypeExpr → List TypeExpr
  | [] => []
  | member :: rest => member.alternatives ++ TypeExpr.alternativesOf rest
termination_by structural members => members

def TypeExpr.normalForms : List TypeExpr → List TypeExpr
  | [] => []
  | type :: rest => .ofAlternatives type.alternatives :: TypeExpr.normalForms rest
termination_by structural types => types

def Param.normalForm : Param → Param
  | ⟨name, type, optional, rest⟩ => ⟨name, .ofAlternatives type.alternatives, optional, rest⟩
termination_by structural param => param

def Param.normalForms : List Param → List Param
  | [] => []
  | param :: rest => param.normalForm :: Param.normalForms rest
termination_by structural params => params

end

def TypeExpr.normalForm (type : TypeExpr) : TypeExpr :=
  .ofAlternatives type.alternatives

theorem TypeExpr.alternativesOf_append (first second : List TypeExpr) :
    TypeExpr.alternativesOf (first ++ second) =
      TypeExpr.alternativesOf first ++ TypeExpr.alternativesOf second := by
  induction first with
  | nil => rfl
  | cons member first ih =>
      rw [List.cons_append, TypeExpr.alternativesOf, TypeExpr.alternativesOf, ih, List.append_assoc]

theorem TypeExpr.alternatives_union {members : List TypeExpr} (h : members ≠ []) :
    (TypeExpr.union members).alternatives = TypeExpr.alternativesOf members := by
  rw [TypeExpr.alternatives, if_neg (by simpa using h)]

theorem TypeExpr.normalForm_union_singleton (member : TypeExpr) :
    (TypeExpr.union [member]).normalForm = member.normalForm := by
  rw [normalForm, alternatives_union (by simp), alternativesOf, alternativesOf, List.append_nil]
  rfl

/-- A union among the members of a union can be replaced by its own members. -/
theorem TypeExpr.normalForm_union_union (before after : List TypeExpr) {members : List TypeExpr}
    (h : members ≠ []) :
    (TypeExpr.union (before ++ .union members :: after)).normalForm =
      (TypeExpr.union (before ++ (members ++ after))).normalForm := by
  rw [normalForm, normalForm, alternatives_union (by simp), alternatives_union (by simp [h]),
    alternativesOf_append, alternativesOf_append, alternativesOf_append, alternativesOf,
    alternatives_union h]

/-- There is an alternative, and none of them is a union or has to be brought to normal form. -/
structure AreAlternatives (types : List TypeExpr) : Prop where
  ne_nil : types ≠ []
  each : ∀ type ∈ types, type.alternatives = [type]

theorem AreAlternatives.singleton {type : TypeExpr} (h : type.alternatives = [type]) :
    AreAlternatives [type] :=
  ⟨by simp, List.forall_mem_singleton.mpr h⟩

theorem AreAlternatives.append {first second : List TypeExpr} (hfirst : AreAlternatives first)
    (hsecond : ∀ type ∈ second, type.alternatives = [type]) : AreAlternatives (first ++ second) :=
  ⟨by simp [hfirst.ne_nil], List.forall_mem_append.mpr ⟨hfirst.each, hsecond⟩⟩

theorem AreAlternatives.alternativesOf_eq {types : List TypeExpr}
    (h : ∀ type ∈ types, type.alternatives = [type]) : TypeExpr.alternativesOf types = types := by
  induction types with
  | nil => rfl
  | cons type types ih =>
      obtain ⟨htype, htypes⟩ := List.forall_mem_cons.mp h
      rw [TypeExpr.alternativesOf, htype, ih htypes]
      rfl

theorem AreAlternatives.alternatives_ofAlternatives {types : List TypeExpr}
    (h : AreAlternatives types) : (TypeExpr.ofAlternatives types).alternatives = types := by
  match types with
  | [] => exact absurd rfl h.ne_nil
  | [type] => exact h.each type (List.mem_singleton_self type)
  | first :: second :: types =>
      rw [TypeExpr.ofAlternatives, TypeExpr.alternatives_union (by simp), alternativesOf_eq h.each]
      simp

mutual

theorem areAlternatives : ∀ type : TypeExpr, AreAlternatives type.alternatives
  | .keyword _ => .singleton rfl
  | .reference _ args => by
      refine .singleton ?_
      rw [TypeExpr.alternatives, normalForms_normalForms args]
  | .union [] => .singleton rfl
  | .union (member :: members) => by
      rw [TypeExpr.alternatives_union (by simp), TypeExpr.alternativesOf]
      exact (areAlternatives member).append (areAlternatives_each members)
  | .stringLiteral _ => .singleton rfl
  | .tuple elements => by
      refine .singleton ?_
      rw [TypeExpr.alternatives, normalForms_normalForms elements]
  | .function params returns => by
      refine .singleton ?_
      rw [TypeExpr.alternatives, normalForms_params params,
        (areAlternatives returns).alternatives_ofAlternatives]
  | .typeQuery _ => .singleton rfl
termination_by structural type => type

theorem areAlternatives_each : ∀ types : List TypeExpr,
    ∀ type ∈ TypeExpr.alternativesOf types, type.alternatives = [type]
  | [] => by simp [TypeExpr.alternativesOf]
  | type :: types => by
      rw [TypeExpr.alternativesOf, List.forall_mem_append]
      exact ⟨(areAlternatives type).each, areAlternatives_each types⟩
termination_by structural types => types

theorem normalForms_normalForms : ∀ types : List TypeExpr,
    TypeExpr.normalForms (TypeExpr.normalForms types) = TypeExpr.normalForms types
  | [] => rfl
  | type :: types => by
      rw [TypeExpr.normalForms, TypeExpr.normalForms,
        (areAlternatives type).alternatives_ofAlternatives, normalForms_normalForms types]
termination_by structural types => types

theorem normalForm_param : ∀ param : Param, param.normalForm.normalForm = param.normalForm
  | ⟨_, type, _, _⟩ => by
      rw [Param.normalForm, Param.normalForm, (areAlternatives type).alternatives_ofAlternatives]
termination_by structural param => param

theorem normalForms_params : ∀ params : List Param,
    Param.normalForms (Param.normalForms params) = Param.normalForms params
  | [] => rfl
  | param :: params => by
      rw [Param.normalForms, Param.normalForms, normalForm_param param, normalForms_params params]
termination_by structural params => params

end

/-- A normal form is in normal form. -/
theorem TypeExpr.normalForm_normalForm (type : TypeExpr) :
    type.normalForm.normalForm = type.normalForm := by
  rw [normalForm, normalForm, (areAlternatives type).alternatives_ofAlternatives]

/-! ### What a normal form keeps -/

/-- What an alternative says of itself, apart from the types in it. -/
inductive Heading where
  | name (name : String) (args : Nat)
  | value (value : String)
  | tuple (elements : Nat)
  | function (params : List (String × Bool × Bool))
  | query (name : String)
  deriving DecidableEq, Repr

def Param.heading (param : Param) : String × Bool × Bool :=
  (param.name, param.optional, param.rest)

mutual

/-- The headings of a type taken as a union, with its values, its counts and the flags of its
parameters. -/
def TypeExpr.headings : TypeExpr → List Heading
  | .keyword word => [.name word.text 0]
  | .reference name args => [.name name args.length]
  | .union members => if members.isEmpty then [.name "never" 0] else TypeExpr.headingsOf members
  | .stringLiteral value => [.value value]
  | .tuple elements => [.tuple elements.length]
  | .function params _ => [.function (params.map Param.heading)]
  | .typeQuery name => [.query name]
termination_by structural type => type

def TypeExpr.headingsOf : List TypeExpr → List Heading
  | [] => []
  | member :: rest => member.headings ++ TypeExpr.headingsOf rest
termination_by structural members => members

end

theorem TypeExpr.length_normalForms (types : List TypeExpr) :
    (TypeExpr.normalForms types).length = types.length := by
  induction types with
  | nil => rfl
  | cons type types ih => rw [normalForms, List.length_cons, List.length_cons, ih]

theorem Param.map_heading_normalForms (params : List Param) :
    (Param.normalForms params).map Param.heading = params.map Param.heading := by
  induction params with
  | nil => rfl
  | cons param params ih =>
      have hparam : param.normalForm.heading = param.heading := by
        cases param
        rfl
      rw [normalForms, List.map_cons, List.map_cons, hparam, ih]

mutual

/-- The alternatives have the headings of the type. -/
theorem TypeExpr.headings_eq_flatMap : ∀ type : TypeExpr,
    type.headings = type.alternatives.flatMap TypeExpr.headings
  | .keyword _ => rfl
  | .reference _ args => by
      rw [TypeExpr.alternatives, List.flatMap_singleton, TypeExpr.headings, TypeExpr.headings,
        TypeExpr.length_normalForms]
  | .union [] => rfl
  | .union (member :: members) => by
      rw [TypeExpr.alternatives_union (by simp)]
      exact TypeExpr.headingsOf_eq_flatMap (member :: members)
  | .stringLiteral _ => rfl
  | .tuple elements => by
      rw [TypeExpr.alternatives, List.flatMap_singleton, TypeExpr.headings, TypeExpr.headings,
        TypeExpr.length_normalForms]
  | .function params returns => by
      rw [TypeExpr.alternatives, List.flatMap_singleton, TypeExpr.headings, TypeExpr.headings,
        Param.map_heading_normalForms]
  | .typeQuery _ => rfl
termination_by structural type => type

theorem TypeExpr.headingsOf_eq_flatMap : ∀ types : List TypeExpr,
    TypeExpr.headingsOf types = (TypeExpr.alternativesOf types).flatMap TypeExpr.headings
  | [] => rfl
  | type :: types => by
      rw [TypeExpr.headingsOf, TypeExpr.alternativesOf, List.flatMap_append,
        TypeExpr.headings_eq_flatMap type, TypeExpr.headingsOf_eq_flatMap types]
termination_by structural types => types

end

end IdlTypings.Ts
