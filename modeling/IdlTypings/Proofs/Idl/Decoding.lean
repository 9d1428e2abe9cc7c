import IdlTypings.Idl.Load

/-!
# Decoding, step by step

What a successful reading of a record says about its parts, and what is found under the keys of an
object that was put together from its fields.
-/

namespace IdlTypings.Json

theorem lookup_insertField (key k : String) (value : Value) (fields : List (String × Value)) :
    (insertField key value fields).lookup k = if k = key then some value else fields.lookup k := by
  induction fields with
  | nil =>
      by_cases h : k = key
      · simp [insertField, h]
      · simp [insertField, List.lookup_cons, beq_false_of_ne h, h]
  | cons field rest ih =>
      obtain ⟨j, v⟩ := field
      unfold insertField
      split
      · by_cases h : k = key
        · simp [h]
        · rw [List.lookup_cons, beq_false_of_ne h, if_neg h]
      · split
        · rename_i hkey
          subst hkey
          by_cases h : k = key
          · simp [h]
          · simp [List.lookup_cons, beq_false_of_ne h, h]
        · rename_i hne
          by_cases h : k = j
          · subst h
            simp [Ne.symm hne]
          · rw [List.lookup_cons, beq_false_of_ne h, ih, List.lookup_cons, beq_false_of_ne h]

theorem lookup_foldl_insertField (k : String) (fields : List (String × Value)) :
    ∀ acc : List (String × Value),
      (fields.foldl (fun object (key, value) => insertField key value object) acc).lookup k =
        (fields.reverse.lookup k).or (acc.lookup k) := by
  induction fields with
  | nil => intro acc; rfl
  | cons field rest ih =>
      intro acc
      obtain ⟨key, value⟩ := field
      rw [List.foldl_cons, ih, lookup_insertField, List.reverse_cons, List.lookup_append,
        Option.or_assoc]
      by_cases h : k = key
      · simp [h]
      · simp [h, List.lookup_cons, beq_false_of_ne h]

end IdlTypings.Json

namespace IdlTypings.Idl

open Json (Value)

/-- Of several fields with one key the last one counts. -/
@[simp]
theorem lookup_fieldsOf_ofFields (key : String) (fields : List (String × Value)) :
    (fieldsOf (.ofFields fields)).lookup key = fields.reverse.lookup key := by
  simp [fieldsOf, Value.ofFields, Json.lookup_foldl_insertField]

/-- The tag of a node that was put together from its fields. -/
theorem tagOf_ofFields {fields : List (String × Value)} {tag : String}
    (h : fields.reverse.lookup "type" = some (.string tag)) : tagOf (.ofFields fields) = tag := by
  have hfield : (Value.ofFields fields).field? "type" = some (.string tag) := by
    rw [← h, ← lookup_fieldsOf_ofFields]
    rfl
  simp [tagOf, hfield]

section Reading

variable {ε α β : Type}

theorem bind_eq_ok_iff {x : Except ε α} {f : α → Except ε β} {b : β} :
    x >>= f = .ok b ↔ ∃ a, x = .ok a ∧ f a = .ok b := by
  cases x with
  | error e => simp [bind, Except.bind]
  | ok a => simp [bind, Except.bind]

theorem map_eq_ok_iff {f : α → β} {x : Except ε α} {b : β} :
    f <$> x = .ok b ↔ ∃ a, x = .ok a ∧ f a = b := by
  cases x with
  | error e => simp [Functor.map, Except.map]
  | ok a => simp [Functor.map, Except.map]

theorem pure_eq_ok_iff {a b : α} : (pure a : Except ε α) = .ok b ↔ a = b := by
  simp [pure, Except.pure]

@[simp]
theorem ok_bind (a : α) (f : α → Except ε β) : (.ok a : Except ε α) >>= f = f a := rfl

@[simp]
theorem map_ok (f : α → β) (a : α) : f <$> (.ok a : Except ε α) = .ok (f a) := rfl

@[simp]
theorem optional_some (item : Decoder α) (value : Value) :
    Decoder.optional item (some value) = some <$> item value := rfl

@[simp]
theorem optional_none (item : Decoder α) : Decoder.optional item none = .ok none := rfl

/-- A field that was read was either absent or held a good value. -/
theorem exists_of_field?_eq_ok {fields : List (String × Value)} {key : String} {item : Decoder α}
    {found : Option α} (h : field? fields key item = .ok found) :
    fields.lookup key = none ∧ found = none ∨
      ∃ value a, fields.lookup key = some value ∧ item value = .ok a ∧ found = some a := by
  unfold field? at h
  cases hlookup : fields.lookup key with
  | none =>
      rw [hlookup] at h
      cases h
      exact .inl ⟨rfl, rfl⟩
  | some value =>
      rw [hlookup, optional_some, map_eq_ok_iff] at h
      obtain ⟨a, ha, rfl⟩ := h
      exact .inr ⟨value, a, rfl, ha, rfl⟩

theorem forall_of_all_eq_ok {item : Decoder α} {p : α → Prop}
    (hitem : ∀ value a, item value = .ok a → p a) {values : List Value} {as : List α}
    (h : Decoder.all item values = .ok as) : ∀ a ∈ as, p a := by
  induction values generalizing as with
  | nil =>
      cases h
      simp
  | cons value rest ih =>
      rw [Decoder.all, bind_eq_ok_iff] at h
      obtain ⟨first, hfirst, h⟩ := h
      obtain ⟨others, hothers, h⟩ := bind_eq_ok_iff.mp h
      cases h
      rintro a (_ | ⟨_, ha⟩)
      · exact hitem value _ hfirst
      · exact ih hothers a ha

theorem forall_of_list_field_eq_ok {item : Decoder α} {p : α → Prop}
    (hitem : ∀ value a, item value = .ok a → p a) {fields : List (String × Value)} {key : String}
    {as : Option (List α)} (h : field? fields key (Decoder.list item) = .ok as) :
    ∀ a ∈ as.getD [], p a := by
  obtain ⟨-, rfl⟩ | ⟨value, as, -, has, rfl⟩ := exists_of_field?_eq_ok h
  · simp
  · obtain ⟨values, -, hall⟩ := bind_eq_ok_iff.mp has
    exact forall_of_all_eq_ok hitem hall

/-- Items that are read back one by one are read back as a list. -/
theorem all_map_eq_ok {item : Decoder α} {write : α → Value} {as : List α}
    (h : ∀ a ∈ as, item (write a) = .ok a) : Decoder.all item (as.map write) = .ok as := by
  induction as with
  | nil => rfl
  | cons a rest ih =>
      rw [List.map_cons, Decoder.all, h a (by simp), ih fun b hb => h b (by simp [hb])]
      rfl

theorem inNode_eq_ok_iff {node : Value} {x : Decoding α} {a : α} :
    inNode node x = .ok a ↔ x = .ok a := by
  cases x with
  | error e => simp [inNode]
  | ok a => simp [inNode]

end Reading

theorem MemberTag.ofText?_text (tag : MemberTag) : MemberTag.ofText? tag.text = some tag := by
  cases tag <;> decide

theorem RootTag.ofText?_text (tag : RootTag) : RootTag.ofText? tag.text = some tag := by
  cases tag with
  | definition kind => cases kind <;> decide
  | _ => decide

theorem Special.ofKeyword?_keyword (special : Special) :
    Special.ofKeyword? special.keyword = some special := by
  cases special <;> decide

theorem Member.ofNode_of_tag {node : Value} {tag : MemberTag} (h : tagOf node = tag.text) :
    Member.ofNode node = inNode node (tag.member node) := by
  rw [Member.ofNode, h, MemberTag.ofText?_text]

theorem Root.ofNode?_of_tag {node : Value} {tag : RootTag} (h : tagOf node = tag.text) :
    Root.ofNode? node = tag.root? node := by
  rw [Root.ofNode?, h, RootTag.ofText?_text]

end IdlTypings.Idl
