import IdlTypings.Proofs.Json.Integers

/-!
# Exact values

Values without doubles, in the form in which the reader gives them: integers fit a word, and the
fields of an object stand in the order of their keys, each key once.
-/

namespace IdlTypings.Json

def Number.IsExact : Number → Prop
  | .integer n => FitsWord n
  | .double _ => False

mutual

def Value.IsExact : Value → Prop
  | .null => True
  | .bool _ => True
  | .number n => n.IsExact
  | .string _ => True
  | .array items => AreExact items
  | .object fields => (fields.map Prod.fst).Pairwise (· < ·) ∧ FieldsAreExact fields
termination_by structural value => value

def AreExact : List Value → Prop
  | [] => True
  | item :: items => item.IsExact ∧ AreExact items
termination_by structural items => items

def FieldsAreExact : List (String × Value) → Prop
  | [] => True
  | (_, value) :: fields => value.IsExact ∧ FieldsAreExact fields
termination_by structural fields => fields

end

mutual

/-- How many containers are nested in each other, empty ones included. -/
def Value.depth : Value → Nat
  | .array items => itemsDepth items + 1
  | .object fields => fieldsDepth fields + 1
  | _ => 0
termination_by structural value => value

def itemsDepth : List Value → Nat
  | [] => 0
  | item :: items => max item.depth (itemsDepth items)
termination_by structural items => items

def fieldsDepth : List (String × Value) → Nat
  | [] => 0
  | (_, value) :: fields => max value.depth (fieldsDepth fields)
termination_by structural fields => fields

end

/-! ### Fields in ascending order -/

theorem insertField_of_forall_lt {key : String} {fields : List (String × Value)}
    (h : ∀ k ∈ fields.map Prod.fst, k < key) (value : Value) :
    insertField key value fields = fields ++ [(key, value)] := by
  induction fields with
  | nil => rfl
  | cons field rest ih =>
      obtain ⟨k, v⟩ := field
      rw [List.map_cons, List.forall_mem_cons] at h
      have hbefore : ¬key < k := String.lt_asymm h.1
      have hsame : key ≠ k := by
        rintro rfl
        exact String.lt_irrefl key h.1
      rw [insertField, if_neg hbefore, if_neg hsame, ih h.2, List.cons_append]

theorem foldl_insertField_of_pairwise {object fields : List (String × Value)}
    (h : ((object ++ fields).map Prod.fst).Pairwise (· < ·)) :
    fields.foldl (fun object (key, value) => insertField key value object) object =
      object ++ fields := by
  induction fields generalizing object with
  | nil => exact (List.append_nil object).symm
  | cons field rest ih =>
      obtain ⟨key, value⟩ := field
      have hlast : ∀ k ∈ object.map Prod.fst, k < key := by
        intro k hk
        rw [List.map_append, List.pairwise_append] at h
        exact h.2.2 k hk key (.head _)
      change rest.foldl _ (insertField key value object) = _
      rw [insertField_of_forall_lt hlast, ih (by simpa using h), List.append_assoc,
        List.singleton_append]

/-- Fields that were written in the order of an object make up this object. -/
theorem ofFields_of_pairwise {fields : List (String × Value)}
    (h : (fields.map Prod.fst).Pairwise (· < ·)) : Value.ofFields fields = .object fields :=
  congrArg Value.object (foldl_insertField_of_pairwise h)

end IdlTypings.Json
