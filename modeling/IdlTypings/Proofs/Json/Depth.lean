import IdlTypings.Proofs.Idl.Decoding
import IdlTypings.Proofs.Json.Exact

/-!
# The depth of what is read

A text whose containers are nested too deep is refused, so no value that is read is deeper than the
reader allows. What stands inside a value is less deep than the value by the containers around it.
-/

namespace IdlTypings.Json

open Idl (bind_eq_ok_iff pure_eq_ok_iff)

/-! ### Depth and parts -/

theorem itemsDepth_le_iff {items : List Value} {n : Nat} :
    itemsDepth items ≤ n ↔ ∀ item ∈ items, item.depth ≤ n := by
  induction items with
  | nil => simp [itemsDepth]
  | cons item items ih => rw [itemsDepth, Nat.max_le, ih, List.forall_mem_cons]

theorem fieldsDepth_le_iff {fields : List (String × Value)} {n : Nat} :
    fieldsDepth fields ≤ n ↔ ∀ field ∈ fields, field.2.depth ≤ n := by
  induction fields with
  | nil => simp [fieldsDepth]
  | cons field fields ih => rw [fieldsDepth, Nat.max_le, ih, List.forall_mem_cons]

/-- A value stands inside another one, with `n` containers around it. -/
inductive Value.Holds : Value → Nat → Value → Prop where
  | self (value : Value) : Value.Holds value 0 value
  | item {items : List Value} {item value : Value} {n : Nat} (hitem : item ∈ items)
      (h : Value.Holds item n value) : Value.Holds (.array items) (n + 1) value
  | field {fields : List (String × Value)} {key : String} {found value : Value} {n : Nat}
      (hfield : (key, found) ∈ fields) (h : Value.Holds found n value) :
      Value.Holds (.object fields) (n + 1) value

theorem Value.Holds.depth_add_le {outer value : Value} {n : Nat} (h : outer.Holds n value) :
    value.depth + n ≤ outer.depth := by
  induction h with
  | self value => exact Nat.le_refl _
  | item hitem _ ih =>
      have hdepth := itemsDepth_le_iff.mp (Nat.le_refl _) _ hitem
      rw [Value.depth]
      exact Nat.succ_le_succ (Nat.le_trans ih hdepth)
  | field hfield _ ih =>
      have hdepth := fieldsDepth_le_iff.mp (Nat.le_refl _) _ hfield
      rw [Value.depth]
      exact Nat.succ_le_succ (Nat.le_trans ih hdepth)

theorem Value.Holds.trans {outer inner value : Value} {n m : Nat} (hinner : outer.Holds n inner)
    (hvalue : inner.Holds m value) : outer.Holds (n + m) value := by
  induction hinner with
  | self inner => rwa [Nat.zero_add]
  | item hitem _ ih =>
      rw [Nat.succ_add]
      exact .item hitem (ih hvalue)
  | field hfield _ ih =>
      rw [Nat.succ_add]
      exact .field hfield (ih hvalue)

/-! ### Fields of an object -/

section Fields

variable {p : Value → Prop} {fields : List (String × Value)}

theorem forall_mem_insertField {key : String} {value : Value} (hvalue : p value)
    (h : ∀ field ∈ fields, p field.2) : ∀ field ∈ insertField key value fields, p field.2 := by
  induction fields with
  | nil => exact List.forall_mem_singleton.mpr hvalue
  | cons field rest ih =>
      obtain ⟨hfield, hrest⟩ := List.forall_mem_cons.mp h
      rw [insertField]
      split
      · exact List.forall_mem_cons.mpr ⟨hvalue, h⟩
      · split
        · exact List.forall_mem_cons.mpr ⟨hvalue, hrest⟩
        · exact List.forall_mem_cons.mpr ⟨hfield, ih hrest⟩

/-- An object holds nothing but what was written, whichever of the written fields it keeps. -/
theorem forall_mem_foldl_insertField (h : ∀ field ∈ fields, p field.2) :
    ∀ {object : List (String × Value)}, (∀ field ∈ object, p field.2) →
      ∀ field ∈ fields.foldl (fun object (key, value) => insertField key value object) object,
        p field.2 := by
  induction fields with
  | nil => exact id
  | cons field rest ih =>
      intro object hobject
      obtain ⟨hfield, hrest⟩ := List.forall_mem_cons.mp h
      exact ih hrest (forall_mem_insertField hfield hobject)

theorem depth_ofFields_le {n : Nat} (h : ∀ field ∈ fields, field.2.depth ≤ n) :
    (Value.ofFields fields).depth ≤ n + 1 := by
  have hobject := forall_mem_foldl_insertField (p := fun value => value.depth ≤ n) h
    (List.forall_mem_nil _)
  exact Nat.succ_le_succ (fieldsDepth_le_iff.mpr hobject)

end Fields

/-! ### Reading -/

section Reading

variable {readItem : ValueReader} {p : Value → Prop} {text rest : List Char}

/-- What holds of whatever the reader of items gives holds of all items of an array. -/
theorem forall_of_readItems
    (hitem : ∀ {text value rest}, readItem text = .ok (value, rest) → p value) {fuel : Nat}
    {items : List Value} (h : readItems readItem fuel text = .ok (items, rest)) :
    ∀ item ∈ items, p item := by
  induction fuel generalizing text items rest with
  | zero => cases h
  | succ fuel ih =>
      rw [readItems] at h
      split at h
      · cases h
      · cases h
        simp
      · split at h
        · cases h
        · cases h
        · simp only [bind_eq_ok_iff, pure_eq_ok_iff] at h
          obtain ⟨⟨first, between⟩, hfirst, ⟨others, after⟩, hothers, hall⟩ := h
          cases hall
          exact List.forall_mem_cons.mpr ⟨hitem hfirst, ih hothers⟩
      · cases h

theorem forall_of_readArray
    (hitem : ∀ {text value rest}, readItem text = .ok (value, rest) → p value)
    {items : List Value} (h : readArray readItem text = .ok (items, rest)) :
    ∀ item ∈ items, p item := by
  rw [readArray] at h
  split at h
  · cases h
  · cases h
    simp
  · simp only [bind_eq_ok_iff, pure_eq_ok_iff] at h
    obtain ⟨⟨first, between⟩, hfirst, ⟨others, after⟩, hothers, hall⟩ := h
    cases hall
    exact List.forall_mem_cons.mpr ⟨hitem hfirst, forall_of_readItems hitem hothers⟩

theorem readField_holds
    (hitem : ∀ {text value rest}, readItem text = .ok (value, rest) → p value)
    {field : String × Value} (h : readField readItem text = .ok (field, rest)) : p field.2 := by
  simp only [readField, bind_eq_ok_iff] at h
  obtain ⟨⟨key, between⟩, -, h⟩ := h
  split at h
  · cases h
  · simp only [bind_eq_ok_iff, pure_eq_ok_iff] at h
    obtain ⟨⟨value, after⟩, hvalue, hfield⟩ := h
    cases hfield
    exact hitem hvalue
  · cases h

theorem forall_of_readFields
    (hitem : ∀ {text value rest}, readItem text = .ok (value, rest) → p value) {fuel : Nat}
    {fields : List (String × Value)} (h : readFields readItem fuel text = .ok (fields, rest)) :
    ∀ field ∈ fields, p field.2 := by
  induction fuel generalizing text fields rest with
  | zero => cases h
  | succ fuel ih =>
      rw [readFields] at h
      split at h
      · cases h
      · cases h
        simp
      · split at h
        · cases h
        · simp only [bind_eq_ok_iff, pure_eq_ok_iff] at h
          obtain ⟨⟨first, between⟩, hfirst, ⟨others, after⟩, hothers, hall⟩ := h
          cases hall
          exact List.forall_mem_cons.mpr ⟨readField_holds hitem hfirst, ih hothers⟩
        · cases h
        · cases h
      · cases h

theorem forall_of_readObject
    (hitem : ∀ {text value rest}, readItem text = .ok (value, rest) → p value)
    {fields : List (String × Value)} (h : readObject readItem text = .ok (fields, rest)) :
    ∀ field ∈ fields, p field.2 := by
  rw [readObject] at h
  split at h
  · cases h
  · cases h
    simp
  · simp only [bind_eq_ok_iff, pure_eq_ok_iff] at h
    obtain ⟨⟨first, between⟩, hfirst, ⟨others, after⟩, hothers, hall⟩ := h
    cases hall
    exact List.forall_mem_cons.mpr
      ⟨readField_holds hitem hfirst, forall_of_readFields hitem hothers⟩
  · cases h

end Reading

/-- What is read is a container only if a container may stand there. -/
theorem readValue_eq_ok {depth : Nat} {text rest : List Char} {value : Value}
    (h : readValue depth text = .ok (value, rest)) :
    value.depth = 0 ∨
      (∃ spare start items, depth = spare + 1 ∧ value = .array items ∧
        readArray (readValue spare) start = .ok (items, rest)) ∨
      ∃ spare start fields, depth = spare + 1 ∧ value = .ofFields fields ∧
        readObject (readValue spare) start = .ok (fields, rest) := by
  unfold readValue at h
  split at h
  case h_1 => cases h
  case h_7 start _ =>
      cases depth with
      | zero => cases h
      | succ spare =>
          simp only [bind_eq_ok_iff, pure_eq_ok_iff] at h
          obtain ⟨⟨items, after⟩, hitems, hvalue⟩ := h
          cases hvalue
          exact .inr (.inl ⟨spare, start, items, rfl, rfl, hitems⟩)
  case h_8 start _ =>
      cases depth with
      | zero => cases h
      | succ spare =>
          simp only [bind_eq_ok_iff, pure_eq_ok_iff] at h
          obtain ⟨⟨fields, after⟩, hfields, hvalue⟩ := h
          cases hvalue
          exact .inr (.inr ⟨spare, start, fields, rfl, rfl, hfields⟩)
  case h_9 =>
      split at h
      · simp only [bind_eq_ok_iff, pure_eq_ok_iff] at h
        obtain ⟨_, -, hvalue⟩ := h
        cases hvalue
        exact .inl rfl
      · cases h
  all_goals
    simp only [bind_eq_ok_iff, pure_eq_ok_iff] at h
    obtain ⟨_, -, hvalue⟩ := h
    cases hvalue
    exact .inl rfl

theorem depth_le_of_readValue {depth : Nat} {text rest : List Char} {value : Value}
    (h : readValue depth text = .ok (value, rest)) : value.depth ≤ depth := by
  induction depth generalizing text value rest with
  | zero =>
      obtain hscalar | ⟨spare, _, _, hdepth, _⟩ | ⟨spare, _, _, hdepth, _⟩ := readValue_eq_ok h
      · exact Nat.le_of_eq hscalar
      · cases hdepth
      · cases hdepth
  | succ depth ih =>
      obtain hscalar | ⟨spare, start, items, hdepth, rfl, hitems⟩ |
        ⟨spare, start, fields, hdepth, rfl, hfields⟩ := readValue_eq_ok h
      · rw [hscalar]
        exact Nat.zero_le _
      · cases hdepth
        exact Nat.succ_le_succ (itemsDepth_le_iff.mpr (forall_of_readArray ih hitems))
      · cases hdepth
        exact depth_ofFields_le (forall_of_readObject ih hfields)

/-- Nothing that is read from a text is nested deeper than it may be. -/
theorem depth_le_of_parse {depth : Nat} {text : String} {value : Value}
    (h : parse depth text = .ok value) : value.depth ≤ depth := by
  have hdocument : readDocument depth text.toList = .ok value := by
    unfold parse at h
    split at h
    · rename_i found hfound
      cases h
      exact hfound
    · cases h
  rw [readDocument, bind_eq_ok_iff] at hdocument
  obtain ⟨⟨found, rest⟩, hfound, hend⟩ := hdocument
  dsimp only at hend
  split at hend
  · cases hend
    exact depth_le_of_readValue hfound
  · cases hend

end IdlTypings.Json
