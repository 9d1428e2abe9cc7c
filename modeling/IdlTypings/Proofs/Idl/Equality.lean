import IdlTypings.Proofs.Conversion.Skipped
import IdlTypings.Proofs.Json.Equality
import Mathlib.Data.List.Forall2
import Mathlib.Data.List.Nodup
import Mathlib.Data.List.Perm.Subperm

/-!
# Equality of models

Two models are equal if they are the same but for the order of attributes. The comparison decides
this for models whose raw values hold no doubles.
-/

namespace IdlTypings.Idl

open Json (Value)

/-! ### Attributes -/

namespace ExtAttrs

variable {attrs a b : ExtAttrs} {name : String} {values : List String}

theorem mem_entries_iff : (name, values) ∈ attrs.entries ↔ attrs.get? name = some values := by
  rw [get?, List.lookup_eq_some_iff]
  constructor
  · intro h
    obtain ⟨before, after, hentries⟩ := List.append_of_mem h
    refine ⟨before, after, hentries, fun entry hentry => bne_iff_ne.mpr ?_⟩
    have hnodup := attrs.nodup
    rw [hentries, List.map_append, List.map_cons] at hnodup
    rintro rfl
    exact List.disjoint_of_nodup_append hnodup (List.mem_map_of_mem hentry) List.mem_cons_self
  · rintro ⟨before, after, hentries, -⟩
    rw [hentries]
    exact List.mem_append_right before List.mem_cons_self

/-- The order of the entries does not count for equality. -/
theorem beq_iff_perm : (a == b) = true ↔ a.entries.Perm b.entries := by
  change a.beq b = true ↔ _
  rw [beq, Bool.and_eq_true, beq_iff_eq, List.all_eq_true]
  constructor
  · rintro ⟨hlength, hfound⟩
    have hsubset : a.entries ⊆ b.entries := by
      rintro ⟨name, values⟩ hentry
      exact mem_entries_iff.mpr (beq_iff_eq.mp (hfound _ hentry))
    have hnodup : a.entries.Nodup := a.nodup.of_map
    exact (List.subperm_of_subset hnodup hsubset).perm_of_length_le (Nat.le_of_eq hlength.symm)
  · intro hperm
    refine ⟨hperm.length_eq, ?_⟩
    rintro ⟨name, values⟩ hentry
    exact beq_iff_eq.mpr (mem_entries_iff.mp (hperm.mem_iff.mp hentry))

/-- Nor does it count for what is found. -/
theorem get?_eq_of_perm (h : a.entries.Perm b.entries) (name : String) :
    a.get? name = b.get? name := by
  apply Option.ext
  intro values
  rw [← mem_entries_iff, ← mem_entries_iff, h.mem_iff]

end ExtAttrs

/-! ### Types and members -/

/-- A list is compared item by item. -/
theorem beq_iff_forall₂ {α : Type} [BEq α] {R : α → α → Prop} {items : List α}
    (h : ∀ item ∈ items, ∀ other, (item == other) = true ↔ R item other) (others : List α) :
    (items == others) = true ↔ List.Forall₂ R items others := by
  induction items generalizing others with
  | nil =>
      rw [List.nil_beq_eq, List.isEmpty_iff, List.forall₂_nil_left_iff]
  | cons item items ih =>
      obtain ⟨hitem, hitems⟩ := List.forall_mem_cons.mp h
      cases others with
      | nil => exact iff_of_false Bool.false_ne_true nofun
      | cons other others =>
          rw [List.cons_beq_cons, Bool.and_eq_true, hitem, ih hitems, List.forall₂_cons]

theorem beq_list_iff {α : Type} [BEq α] {items : List α}
    (h : ∀ item ∈ items, ∀ other, (item == other) = true ↔ item = other) (others : List α) :
    (items == others) = true ↔ items = others := by
  rw [beq_iff_forall₂ h, List.forall₂_eq_eq_eq]

mutual

theorem TypeExpr.beq_iff {type : TypeExpr} (h : ∀ raw ∈ type.unsupportedLeaves, raw.IsDoubleFree)
    (other : TypeExpr) : type.beq other = true ↔ type = other := by
  match type with
  | .named name nullable => cases other <;> simp [TypeExpr.beq]
  | .generic head args nullable =>
      cases other with
      | generic otherHead others otherNullable =>
          simp only [TypeExpr.beq, Bool.and_eq_true, beqList_iff h others, beq_iff_eq,
            TypeExpr.generic.injEq, and_assoc]
      | _ => exact iff_of_false Bool.false_ne_true nofun
  | .union members nullable =>
      cases other with
      | union others otherNullable =>
          simp only [TypeExpr.beq, Bool.and_eq_true, beqList_iff h others, beq_iff_eq,
            TypeExpr.union.injEq]
      | _ => exact iff_of_false Bool.false_ne_true nofun
  | .unsupported raw =>
      cases other with
      | unsupported otherRaw =>
          rw [TypeExpr.beq, TypeExpr.unsupported.injEq]
          exact Value.beq_iff (List.forall_mem_singleton.mp h) otherRaw
      | _ => exact iff_of_false Bool.false_ne_true nofun
termination_by structural type

theorem beqList_iff {types : List TypeExpr}
    (h : ∀ raw ∈ unsupportedLeavesOf types, raw.IsDoubleFree) (others : List TypeExpr) :
    TypeExpr.beqList types others = true ↔ types = others := by
  match types, others with
  | [], [] => exact iff_of_true rfl rfl
  | [], _ :: _ => exact iff_of_false Bool.false_ne_true nofun
  | _ :: _, [] => exact iff_of_false Bool.false_ne_true nofun
  | type :: types, other :: others =>
      obtain ⟨htype, htypes⟩ := List.forall_mem_append.mp h
      rw [TypeExpr.beqList, Bool.and_eq_true, TypeExpr.beq_iff htype other,
        beqList_iff htypes others, List.cons.injEq]
termination_by structural types

end

/-- All types in a member. -/
def Member.types : Member → List TypeExpr
  | .attr a => [a.type]
  | .operation op => op.arguments.map Argument.type ++ [op.returns]
  | .construct arguments => arguments.map Argument.type
  | .field _ type _ => [type]
  | .constant _ type => [type]
  | .iterable types _ => types
  | .setlike element _ => [element]
  | .maplike key value _ => [key, value]
  | .unsupported _ _ => []

/-- What was kept as it was found. -/
def Member.raws : Member → List Value
  | .unsupported _ raw => [raw]
  | m => m.types.flatMap TypeExpr.unsupportedLeaves

def Root.raws : Root → List Value
  | .definition _ d => d.members.flatMap Member.raws
  | .includes _ _ => []
  | .enumeration _ _ => []
  | .callback _ returns arguments =>
      (arguments.map Argument.type ++ [returns]).flatMap TypeExpr.unsupportedLeaves
  | .typedef _ type => type.unsupportedLeaves
  | .unsupported _ raw => [raw]

/-- There is no double in what was kept. -/
def IsDoubleFree (roots : List Root) : Prop :=
  ∀ raw ∈ roots.flatMap Root.raws, raw.IsDoubleFree

section Members

variable {types : List TypeExpr} {arguments : List Argument}

theorem Argument.beq_iff {a : Argument} (h : ∀ raw ∈ a.type.unsupportedLeaves, raw.IsDoubleFree)
    (b : Argument) : (a == b) = true ↔ a = b := by
  obtain ⟨name, type, optional, variadic⟩ := a
  obtain ⟨otherName, otherType, otherOptional, otherVariadic⟩ := b
  change (name == otherName && (type.beq otherType &&
    (optional == otherOptional && variadic == otherVariadic))) = true ↔ _
  simp only [Bool.and_eq_true, TypeExpr.beq_iff h otherType, beq_iff_eq, Argument.mk.injEq]

theorem beq_arguments_iff
    (h : ∀ raw ∈ (arguments.map Argument.type).flatMap TypeExpr.unsupportedLeaves, raw.IsDoubleFree)
    (others : List Argument) : (arguments == others) = true ↔ arguments = others := by
  refine beq_list_iff (fun a ha => ?_) others
  exact Argument.beq_iff fun raw hraw =>
    h raw (List.mem_flatMap.mpr ⟨a.type, List.mem_map_of_mem ha, hraw⟩)

/-- The types of a member hold what it holds. -/
theorem Member.isDoubleFree_of_mem_types {m : Member} (h : ∀ raw ∈ m.raws, raw.IsDoubleFree)
    {type : TypeExpr} (htype : type ∈ m.types) :
    ∀ raw ∈ type.unsupportedLeaves, raw.IsDoubleFree := by
  intro raw hraw
  apply h
  cases m with
  | unsupported kind raw => cases htype
  | _ => exact List.mem_flatMap.mpr ⟨type, htype, hraw⟩

theorem Operation.beq_iff {op : Operation}
    (h : ∀ raw ∈ (Member.operation op).raws, raw.IsDoubleFree) (other : Operation) :
    (op == other) = true ↔ op = other := by
  obtain ⟨name, arguments, returns, special⟩ := op
  obtain ⟨otherName, otherArguments, otherReturns, otherSpecial⟩ := other
  simp only [Member.raws, Member.types, List.flatMap_append, List.forall_mem_append,
    List.flatMap_singleton] at h
  change (name == otherName && (arguments == otherArguments && (returns.beq otherReturns &&
    special == otherSpecial))) = true ↔ _
  simp only [Bool.and_eq_true, beq_arguments_iff h.1, TypeExpr.beq_iff h.2 otherReturns, beq_iff_eq,
    Operation.mk.injEq]

theorem Attribute.beq_iff {a : Attribute} (h : ∀ raw ∈ a.type.unsupportedLeaves, raw.IsDoubleFree)
    (b : Attribute) : (a == b) = true ↔ a = b := by
  obtain ⟨name, type, readonly, special⟩ := a
  obtain ⟨otherName, otherType, otherReadonly, otherSpecial⟩ := b
  change (name == otherName && (type.beq otherType &&
    (readonly == otherReadonly && special == otherSpecial))) = true ↔ _
  simp only [Bool.and_eq_true, TypeExpr.beq_iff h otherType, beq_iff_eq, Attribute.mk.injEq]

theorem Member.beq_iff {m : Member} (h : ∀ raw ∈ m.raws, raw.IsDoubleFree) (n : Member) :
    (m == n) = true ↔ m = n := by
  have htype : ∀ type ∈ m.types, ∀ other, type.beq other = true ↔ type = other :=
    fun type htype => TypeExpr.beq_iff (Member.isDoubleFree_of_mem_types h htype)
  cases m with
  | attr a =>
      cases n with
      | attr b =>
          rw [Member.attr.injEq]
          exact Attribute.beq_iff (Member.isDoubleFree_of_mem_types h (.head _)) b
      | _ => exact iff_of_false Bool.false_ne_true nofun
  | operation op =>
      cases n with
      | operation other =>
          rw [Member.operation.injEq]
          exact Operation.beq_iff h other
      | _ => exact iff_of_false Bool.false_ne_true nofun
  | construct arguments =>
      cases n with
      | construct others =>
          rw [Member.construct.injEq]
          exact beq_arguments_iff h others
      | _ => exact iff_of_false Bool.false_ne_true nofun
  | field name type required =>
      cases n with
      | field otherName otherType otherRequired =>
          change (name == otherName && (type.beq otherType && required == otherRequired)) = true ↔ _
          simp only [Bool.and_eq_true, htype type (.head _), beq_iff_eq, Member.field.injEq]
      | _ => exact iff_of_false Bool.false_ne_true nofun
  | constant name type =>
      cases n with
      | constant otherName otherType =>
          change (name == otherName && type.beq otherType) = true ↔ _
          simp only [Bool.and_eq_true, htype type (.head _), beq_iff_eq, Member.constant.injEq]
      | _ => exact iff_of_false Bool.false_ne_true nofun
  | iterable types async =>
      cases n with
      | iterable others otherAsync =>
          have htypes : (types == others) = true ↔ types = others := beq_list_iff htype others
          change (types == others && async == otherAsync) = true ↔ _
          simp only [Bool.and_eq_true, htypes, beq_iff_eq, Member.iterable.injEq]
      | _ => exact iff_of_false Bool.false_ne_true nofun
  | setlike element readonly =>
      cases n with
      | setlike other otherReadonly =>
          change (element.beq other && readonly == otherReadonly) = true ↔ _
          simp only [Bool.and_eq_true, htype element (.head _), beq_iff_eq, Member.setlike.injEq]
      | _ => exact iff_of_false Bool.false_ne_true nofun
  | maplike key value readonly =>
      cases n with
      | maplike otherKey otherValue otherReadonly =>
          change (key.beq otherKey && (value.beq otherValue &&
            readonly == otherReadonly)) = true ↔ _
          simp only [Bool.and_eq_true, htype key (.head _), htype value (.tail _ (.head _)),
            beq_iff_eq, Member.maplike.injEq]
      | _ => exact iff_of_false Bool.false_ne_true nofun
  | unsupported kind raw =>
      cases n with
      | unsupported otherKind otherRaw =>
          change (kind == otherKind && raw.beq otherRaw) = true ↔ _
          simp only [Bool.and_eq_true, Value.beq_iff (h raw (.head _)) otherRaw, beq_iff_eq,
            Member.unsupported.injEq]
      | _ => exact iff_of_false Bool.false_ne_true nofun

end Members

/-! ### Definitions -/

/-- The same but for the order of attributes. -/
structure Definition.Same (d e : Definition) : Prop where
  name : d.name = e.name
  inheritance : d.inheritance = e.inheritance
  members : d.members = e.members
  extAttrs : d.extAttrs.entries.Perm e.extAttrs.entries

/-- What has no attributes is the same as itself only. -/
inductive Root.Same : Root → Root → Prop where
  | definition {kind : DefinitionKind} {d e : Definition} (h : d.Same e) :
      Same (.definition kind d) (.definition kind e)
  | refl (root : Root) : Same root root

namespace Definition.Same

variable {d e f : Definition}

theorem refl (d : Definition) : d.Same d := ⟨rfl, rfl, rfl, .refl _⟩

theorem symm (h : d.Same e) : e.Same d :=
  ⟨h.name.symm, h.inheritance.symm, h.members.symm, h.extAttrs.symm⟩

theorem trans (h : d.Same e) (h' : e.Same f) : d.Same f :=
  ⟨h.name.trans h'.name, h.inheritance.trans h'.inheritance, h.members.trans h'.members,
    h.extAttrs.trans h'.extAttrs⟩

end Definition.Same

namespace Root.Same

variable {root other third : Root}

theorem symm (h : root.Same other) : other.Same root := by
  cases h with
  | definition h => exact .definition h.symm
  | refl => exact .refl root

theorem trans (h : root.Same other) (h' : other.Same third) : root.Same third := by
  cases h with
  | definition h =>
      cases h' with
      | definition h' => exact .definition (h.trans h')
      | refl => exact .definition h
  | refl => exact h'

theorem raws_eq (h : root.Same other) : root.raws = other.raws := by
  cases h with
  | definition h => rw [raws, raws, h.members]
  | refl => rfl

end Root.Same

theorem Definition.beq_iff_same {d : Definition}
    (h : ∀ raw ∈ d.members.flatMap Member.raws, raw.IsDoubleFree) (e : Definition) :
    (d == e) = true ↔ d.Same e := by
  have hmember : ∀ m ∈ d.members, ∀ n, (m == n) = true ↔ m = n := fun m hm =>
    Member.beq_iff fun raw hraw => h raw (List.mem_flatMap.mpr ⟨m, hm, hraw⟩)
  change (d.name == e.name && (d.inheritance == e.inheritance && (d.members == e.members &&
    d.extAttrs == e.extAttrs))) = true ↔ _
  simp only [Bool.and_eq_true, beq_list_iff hmember, ExtAttrs.beq_iff_perm, beq_iff_eq]
  constructor
  · rintro ⟨hname, hinheritance, hmembers, hattrs⟩
    exact ⟨hname, hinheritance, hmembers, hattrs⟩
  · rintro ⟨hname, hinheritance, hmembers, hattrs⟩
    exact ⟨hname, hinheritance, hmembers, hattrs⟩

theorem Root.same_iff_eq {root other : Root} (h : ∀ kind d, root ≠ .definition kind d) :
    root.Same other ↔ root = other := by
  constructor
  · rintro (_ | _)
    · exact absurd rfl (h _ _)
    · rfl
  · rintro rfl
    exact .refl root

theorem Root.beq_iff {root : Root} (hroot : ∀ kind d, root ≠ .definition kind d)
    (h : ∀ raw ∈ root.raws, raw.IsDoubleFree) (other : Root) :
    (root == other) = true ↔ root = other := by
  cases root with
  | definition kind d => exact absurd rfl (hroot kind d)
  | includes target mixin =>
      cases other with
      | includes otherTarget otherMixin =>
          change (target == otherTarget && mixin == otherMixin) = true ↔ _
          simp only [Bool.and_eq_true, beq_iff_eq, Root.includes.injEq]
      | _ => exact iff_of_false Bool.false_ne_true nofun
  | enumeration name values =>
      cases other with
      | enumeration otherName otherValues =>
          change (name == otherName && values == otherValues) = true ↔ _
          simp only [Bool.and_eq_true, beq_iff_eq, Root.enumeration.injEq]
      | _ => exact iff_of_false Bool.false_ne_true nofun
  | callback name returns arguments =>
      simp only [raws, List.flatMap_append, List.forall_mem_append, List.flatMap_singleton] at h
      cases other with
      | callback otherName otherReturns otherArguments =>
          change (name == otherName && (returns.beq otherReturns &&
            arguments == otherArguments)) = true ↔ _
          simp only [Bool.and_eq_true, TypeExpr.beq_iff h.2 otherReturns, beq_arguments_iff h.1,
            beq_iff_eq, Root.callback.injEq]
      | _ => exact iff_of_false Bool.false_ne_true nofun
  | typedef name type =>
      cases other with
      | typedef otherName otherType =>
          have htype : type.beq otherType = true ↔ type = otherType := TypeExpr.beq_iff h otherType
          change (name == otherName && type.beq otherType) = true ↔ _
          simp only [Bool.and_eq_true, htype, beq_iff_eq, Root.typedef.injEq]
      | _ => exact iff_of_false Bool.false_ne_true nofun
  | unsupported kind raw =>
      cases other with
      | unsupported otherKind otherRaw =>
          change (kind == otherKind && raw.beq otherRaw) = true ↔ _
          simp only [Bool.and_eq_true, Value.beq_iff (h raw (.head _)) otherRaw, beq_iff_eq,
            Root.unsupported.injEq]
      | _ => exact iff_of_false Bool.false_ne_true nofun

theorem Root.beq_iff_same {root : Root} (h : ∀ raw ∈ root.raws, raw.IsDoubleFree) (other : Root) :
    (root == other) = true ↔ root.Same other := by
  by_cases hdefinition : ∃ kind d, root = .definition kind d
  · obtain ⟨kind, d, rfl⟩ := hdefinition
    cases other with
    | definition otherKind e =>
        change (kind == otherKind && d == e) = true ↔ _
        rw [Bool.and_eq_true, beq_iff_eq, Definition.beq_iff_same h]
        constructor
        · rintro ⟨rfl, hsame⟩
          exact .definition hsame
        · rintro (hsame | _)
          · exact ⟨rfl, hsame⟩
          · exact ⟨rfl, .refl d⟩
    | _ => exact iff_of_false Bool.false_ne_true nofun
  · have hroot : ∀ kind d, root ≠ .definition kind d := by
      rintro kind d rfl
      exact hdefinition ⟨kind, d, rfl⟩
    rw [Root.same_iff_eq hroot, Root.beq_iff hroot h]

/-! ### Models -/

/-- The same definitions in the same order. -/
def SameModel (a b : List Root) : Prop := List.Forall₂ Root.Same a b

section Models

variable {a b c : List Root}

theorem SameModel.refl (a : List Root) : SameModel a a :=
  List.forall₂_same.mpr fun root _ => .refl root

theorem SameModel.symm (h : SameModel a b) : SameModel b a := by
  induction h with
  | nil => exact .nil
  | cons hroot _ ih => exact .cons hroot.symm ih

theorem SameModel.trans (h : SameModel a b) (h' : SameModel b c) : SameModel a c := by
  induction h generalizing c with
  | nil => exact h'
  | cons hroot _ ih =>
      cases h' with
      | cons hroot' htail => exact .cons (hroot.trans hroot') (ih htail)

theorem SameModel.raws_eq (h : SameModel a b) : a.flatMap Root.raws = b.flatMap Root.raws := by
  induction h with
  | nil => rfl
  | cons hroot _ ih => rw [List.flatMap_cons, List.flatMap_cons, hroot.raws_eq, ih]

theorem SameModel.isDoubleFree (h : SameModel a b) (ha : IsDoubleFree a) : IsDoubleFree b := by
  rw [IsDoubleFree, ← h.raws_eq]
  exact ha

/-- **Equality of models.** The comparison tells whether two models are the same but for the order
of attributes. -/
theorem beq_iff_sameModel (h : IsDoubleFree a) (b : List Root) :
    (a == b) = true ↔ SameModel a b := by
  refine beq_iff_forall₂ (fun root hroot => ?_) b
  exact Root.beq_iff_same fun raw hraw => h raw (List.mem_flatMap.mpr ⟨root, hroot, hraw⟩)

end Models

end IdlTypings.Idl
