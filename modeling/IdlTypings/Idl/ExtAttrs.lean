/-!
# Extended attributes

Extended attributes: `[Exposed=(Window,Worker)]` maps `Exposed` to `Window` and `Worker`. Each name
occurs once, in the place of its first entry and with the values of its last one. The order does
not count for equality.
-/

namespace IdlTypings.Idl

abbrev AttrEntry := String × List String

def insertAttr (name : String) (values : List String) : List AttrEntry → List AttrEntry
  | [] => [(name, values)]
  | (n, v) :: rest =>
      if n = name then (name, values) :: rest else (n, v) :: insertAttr name values rest

theorem mem_keys_insertAttr {name n : String} {values : List String} {entries : List AttrEntry} :
    n ∈ (insertAttr name values entries).map Prod.fst ↔
      n = name ∨ n ∈ entries.map Prod.fst := by
  induction entries with
  | nil => simp [insertAttr]
  | cons entry rest ih =>
      obtain ⟨m, v⟩ := entry
      by_cases h : m = name
      · subst h
        simp [insertAttr]
      · simp only [insertAttr, h, if_false, List.map_cons, List.mem_cons, ih]
        constructor
        · rintro (h | h | h) <;> simp [h]
        · rintro (h | h | h) <;> simp [h]

theorem nodup_keys_insertAttr {name : String} {values : List String} {entries : List AttrEntry}
    (h : (entries.map Prod.fst).Nodup) : ((insertAttr name values entries).map Prod.fst).Nodup := by
  induction entries with
  | nil => simp [insertAttr]
  | cons entry rest ih =>
      obtain ⟨m, v⟩ := entry
      simp only [List.map_cons, List.nodup_cons] at h
      by_cases hm : m = name
      · subst hm
        simpa [insertAttr] using h
      · rw [insertAttr, if_neg hm]
        simp only [List.map_cons, List.nodup_cons, mem_keys_insertAttr, not_or]
        exact ⟨⟨hm, h.1⟩, ih h.2⟩

theorem lookup_insertAttr {name n : String} {values : List String} {entries : List AttrEntry} :
    (insertAttr name values entries).lookup n =
      if n = name then some values else entries.lookup n := by
  induction entries with
  | nil =>
      by_cases h : n = name
      · simp [insertAttr, h]
      · simp [insertAttr, List.lookup_cons, h, beq_false_of_ne h]
  | cons entry rest ih =>
      obtain ⟨m, v⟩ := entry
      by_cases hm : m = name
      · subst hm
        by_cases h : n = m
        · simp [insertAttr, h]
        · simp [insertAttr, List.lookup_cons, h, beq_false_of_ne h]
      · by_cases h : n = m
        · simp [insertAttr, h, hm]
        · simp [insertAttr, List.lookup_cons, hm, ih, beq_false_of_ne h]

structure ExtAttrs where
  entries : List AttrEntry
  nodup : (entries.map Prod.fst).Nodup

namespace ExtAttrs

def empty : ExtAttrs := ⟨[], by simp⟩

instance : Inhabited ExtAttrs := ⟨empty⟩

def insert (attrs : ExtAttrs) (name : String) (values : List String) : ExtAttrs :=
  ⟨insertAttr name values attrs.entries, nodup_keys_insertAttr attrs.nodup⟩

def ofList (entries : List AttrEntry) : ExtAttrs :=
  entries.foldl (fun attrs (name, values) => attrs.insert name values) empty

def get? (attrs : ExtAttrs) (name : String) : Option (List String) :=
  attrs.entries.lookup name

theorem get?_empty (name : String) : empty.get? name = none := rfl

theorem get?_insert (attrs : ExtAttrs) (name n : String) (values : List String) :
    (attrs.insert name values).get? n = if n = name then some values else attrs.get? n :=
  lookup_insertAttr

/-- Whether the attribute `Exposed` names the global or all of them. -/
def isExposedOn (attrs : ExtAttrs) (global : String) : Bool :=
  match attrs.get? "Exposed" with
  | some values => values.any fun value => value == global || value == "*"
  | none => false

def beq (a b : ExtAttrs) : Bool :=
  a.entries.length == b.entries.length &&
    a.entries.all fun (name, values) => b.get? name == some values

instance : BEq ExtAttrs := ⟨beq⟩

end ExtAttrs

end IdlTypings.Idl
