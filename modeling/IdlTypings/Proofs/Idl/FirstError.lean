import IdlTypings.Proofs.Idl.NodeReading

/-!
# The first error decides

Nodes are read in order, and the first that is bad gives the error of them all. So the nodes of two
arrays are read as the nodes of one. A definition is read from its own fields, and only if these are
good from its members.
-/

namespace IdlTypings

section FirstError

variable {α β ε : Type} {f : α → Except ε β} {x : α} {xs : List α} {e : ε}

/-- One of the items gives the error, and those before it are good. -/
def FirstError (f : α → Except ε β) (xs : List α) (e : ε) : Prop :=
  ∃ before x after, xs = before ++ x :: after ∧ (∀ y ∈ before, ∃ b, f y = .ok b) ∧ f x = .error e

theorem not_firstError_nil : ¬ FirstError f [] e := by
  rintro ⟨before, x, after, heq, -, -⟩
  exact absurd heq (by simp)

theorem firstError_cons_of_error {d : ε} (h : f x = .error d) :
    FirstError f (x :: xs) e ↔ e = d := by
  constructor
  · rintro ⟨before, y, after, heq, hbefore, hy⟩
    cases before with
    | nil =>
        obtain ⟨rfl, -⟩ := List.cons.inj heq
        rw [h] at hy
        exact (Except.error.inj hy).symm
    | cons z before =>
        obtain ⟨rfl, -⟩ := List.cons.inj heq
        obtain ⟨b, hb⟩ := hbefore x List.mem_cons_self
        rw [h] at hb
        cases hb
  · rintro rfl
    exact ⟨[], x, xs, rfl, nofun, h⟩

theorem firstError_cons_of_ok {b : β} (h : f x = .ok b) :
    FirstError f (x :: xs) e ↔ FirstError f xs e := by
  constructor
  · rintro ⟨before, y, after, heq, hbefore, hy⟩
    cases before with
    | nil =>
        obtain ⟨rfl, -⟩ := List.cons.inj heq
        rw [h] at hy
        cases hy
    | cons z before =>
        obtain ⟨rfl, rfl⟩ := List.cons.inj heq
        exact ⟨before, y, after, rfl, (List.forall_mem_cons.mp hbefore).2, hy⟩
  · rintro ⟨before, y, after, rfl, hbefore, hy⟩
    exact ⟨x :: before, y, after, rfl, List.forall_mem_cons.mpr ⟨⟨b, h⟩, hbefore⟩, hy⟩

/-- Either all items are good or one of them gives the error. -/
theorem firstError_or_forall_ok (f : α → Except ε β) (xs : List α) :
    (∃ e, FirstError f xs e) ∨ ∀ x ∈ xs, ∃ b, f x = .ok b := by
  induction xs with
  | nil => exact .inr nofun
  | cons x xs ih =>
      cases h : f x with
      | error e => exact .inl ⟨e, (firstError_cons_of_error h).mpr rfl⟩
      | ok b =>
          rcases ih with ⟨e, he⟩ | hall
          · exact .inl ⟨e, (firstError_cons_of_ok h).mpr he⟩
          · exact .inr (List.forall_mem_cons.mpr ⟨⟨b, h⟩, hall⟩)

theorem exists_ok_iff {result : Except ε β} : (∃ b, result = .ok b) ↔ ∀ d, result ≠ .error d := by
  cases result with
  | error d => exact ⟨nofun, fun h => absurd rfl (h d)⟩
  | ok b => exact ⟨fun _ => nofun, fun _ => ⟨b, rfl⟩⟩

/-- Items that are read one after the other fail with the first error. -/
theorem eq_error_iff_firstError {γ : Type} {read : List α → Except ε γ} {combine : β → γ → γ}
    (hnil : ∃ c, read [] = .ok c)
    (hcons : ∀ x xs, read (x :: xs) = do
      let b ← f x
      let c ← read xs
      return combine b c) :
    read xs = .error e ↔ FirstError f xs e := by
  induction xs with
  | nil =>
      obtain ⟨c, hc⟩ := hnil
      rw [hc]
      exact ⟨nofun, fun h => absurd h not_firstError_nil⟩
  | cons x xs ih =>
      cases h : f x with
      | error d =>
          rw [firstError_cons_of_error h, hcons, h]
          exact ⟨fun heq => (Except.error.inj heq).symm, fun heq => heq ▸ rfl⟩
      | ok b =>
          rw [firstError_cons_of_ok h, ← ih, hcons, h, Idl.ok_bind]
          -- a good item leaves the error of the rest as it is
          cases read xs with
          | error d => exact Iff.rfl
          | ok c => exact ⟨nofun, nofun⟩

end FirstError

end IdlTypings

namespace IdlTypings.Idl

open Json (Value)

variable {node : Value} {nodes : List Value} {error : LoadError}

theorem membersOf_eq_error_iff :
    membersOf nodes = .error error ↔ FirstError Member.ofNode nodes error :=
  eq_error_iff_firstError ⟨_, rfl⟩ fun _ _ => rfl

theorem rootsOf_eq_error_iff :
    rootsOf nodes = .error error ↔ FirstError Root.ofNode? nodes error :=
  eq_error_iff_firstError ⟨_, rfl⟩ fun _ _ => rfl

theorem load_of_not_array {value : Value} (h : ∀ nodes, value ≠ .array nodes) :
    load value = .error (.notArray value) := by
  cases value with
  | array nodes => exact absurd rfl (h nodes)
  | _ => rfl

theorem rootsOf_append (first second : List Value) :
    rootsOf (first ++ second) =
      match rootsOf first with
      | .error error => .error error
      | .ok roots =>
          match rootsOf second with
          | .error error => .error error
          | .ok more => .ok (roots ++ more) := by
  induction first with
  | nil =>
      rw [List.nil_append, rootsOf]
      cases rootsOf second <;> rfl
  | cons node rest ih =>
      rw [List.cons_append, rootsOf, rootsOf, ih]
      cases Root.ofNode? node with
      | error error => rfl
      | ok root =>
          cases rootsOf rest with
          | error error => rfl
          | ok roots =>
              cases rootsOf second with
              | error error => rfl
              | ok more =>
                  have hassoc : root.toList ++ (roots ++ more) = root.toList ++ roots ++ more :=
                    (List.append_assoc ..).symm
                  exact congrArg Except.ok hassoc

theorem rootsOf_singleton (node : Value) :
    rootsOf [node] = Option.toList <$> Root.ofNode? node := by
  rw [rootsOf]
  cases Root.ofNode? node with
  | error error => rfl
  | ok root => exact congrArg Except.ok (List.append_nil _)

/-- A definition is bad by its own fields, or, if these are good, by the first bad member. -/
theorem definitionOfNode_eq_error_iff :
    Definition.ofNode node = .error error ↔
      (∃ e, DefinitionFields.ofFields (fieldsOf node) = .error e ∧
        error = .malformed (tagOf node) e) ∨
      ∃ fields, DefinitionFields.ofFields (fieldsOf node) = .ok fields ∧
        FirstError Member.ofNode fields.members error := by
  rw [Definition.ofNode]
  cases h : DefinitionFields.ofFields (fieldsOf node) with
  | error e =>
      constructor
      · intro heq
        exact .inl ⟨e, rfl, (Except.error.inj heq).symm⟩
      · rintro (⟨d, hd, rfl⟩ | ⟨fields, hfields, -⟩)
        · cases hd
          rfl
        · cases hfields
  | ok fields =>
      rw [inNode, ok_bind]
      constructor
      · intro heq
        refine .inr ⟨fields, rfl, membersOf_eq_error_iff.mp ?_⟩
        cases hmembers : membersOf fields.members with
        | error e =>
            rw [hmembers] at heq
            have herror : e = error := Except.error.inj heq
            rw [herror]
        | ok members =>
            rw [hmembers] at heq
            cases heq
      · rintro (⟨d, hd, -⟩ | ⟨found, hfound, hmembers⟩)
        · cases hd
        · cases hfound
          rw [membersOf_eq_error_iff.mpr hmembers]
          rfl

theorem exists_kind_of_mem_definitionTags (htag : tagOf node ∈ definitionTags) :
    ∃ kind, tagOf node = (RootTag.definition kind).text := by
  have hroot : tagOf node ∈ rootTags := List.mem_append_left _ htag
  obtain ⟨tag, -, htext⟩ := mem_rootTags_iff.mp hroot
  rw [← htext] at htag
  obtain ⟨kind, rfl⟩ := mem_definitionTags_iff.mp htag
  exact ⟨kind, htext.symm⟩

theorem members_eq_itemsUnder {fields : DefinitionFields}
    (h : DefinitionFields.ofFields (fieldsOf node) = .ok fields) :
    fields.members = itemsUnder "members" node := by
  simp only [DefinitionFields.ofFields, bind_eq_ok_iff, pure_eq_ok_iff] at h
  obtain ⟨-, -, -, -, members, hmembers, -, -, -, -, rfl⟩ := h
  exact (itemsUnder_of_field? hmembers).symm

theorem load_definition_eq_error_iff (htag : tagOf node ∈ definitionTags) :
    load (.array [node]) = .error error ↔
      (∃ e, DefinitionFields.ofFields (fieldsOf node) = .error e ∧
        error = .malformed (tagOf node) e) ∨
      (∃ fields, DefinitionFields.ofFields (fieldsOf node) = .ok fields) ∧
        FirstError Member.ofNode (itemsUnder "members" node) error := by
  have hsingle : load (.array [node]) = .error error ↔ Definition.ofNode node = .error error := by
    obtain ⟨kind, hkind⟩ := exists_kind_of_mem_definitionTags htag
    rw [load, rootsOf_singleton, Root.ofNode?_of_tag hkind, RootTag.root?]
    cases Definition.ofNode node with
    | error e =>
        exact ⟨fun heq => congrArg Except.error (Except.error.inj heq),
          fun heq => congrArg Except.error (Except.error.inj heq)⟩
    | ok d =>
        constructor
        · intro heq
          cases heq
        · intro heq
          cases heq
  rw [hsingle, definitionOfNode_eq_error_iff]
  refine or_congr_right ⟨?_, ?_⟩
  · rintro ⟨fields, hfields, hmembers⟩
    exact ⟨⟨fields, hfields⟩, members_eq_itemsUnder hfields ▸ hmembers⟩
  · rintro ⟨⟨fields, hfields⟩, hmembers⟩
    exact ⟨fields, hfields, members_eq_itemsUnder hfields ▸ hmembers⟩

end IdlTypings.Idl
