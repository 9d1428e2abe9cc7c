import IdlTypings.Json.Value

/-!
# Equality of values

The comparison of values is equality, but for the doubles in them: a double that is no number
differs from itself, and the two zeros are equal.
-/

namespace IdlTypings.Json

def Number.IsInteger : Number → Prop
  | .integer _ => True
  | .double _ => False

mutual

/-- There is no double in the value. -/
def Value.IsDoubleFree : Value → Prop
  | .number n => n.IsInteger
  | .array items => AreDoubleFree items
  | .object fields => FieldsAreDoubleFree fields
  | _ => True
termination_by structural value => value

def AreDoubleFree : List Value → Prop
  | [] => True
  | item :: items => item.IsDoubleFree ∧ AreDoubleFree items
termination_by structural items => items

def FieldsAreDoubleFree : List (String × Value) → Prop
  | [] => True
  | (_, value) :: fields => value.IsDoubleFree ∧ FieldsAreDoubleFree fields
termination_by structural fields => fields

end

theorem Number.beq_iff {m n : Number} (h : m.IsInteger) : (m == n) = true ↔ m = n := by
  cases m with
  | double x => exact h.elim
  | integer m =>
      cases n with
      | integer n =>
          rw [Number.integer.injEq]
          change (m == n) = true ↔ m = n
          exact beq_iff_eq
      | double x => exact iff_of_false Bool.false_ne_true nofun

mutual

theorem Value.beq_iff {a : Value} (h : a.IsDoubleFree) (b : Value) : a.beq b = true ↔ a = b := by
  match a with
  | .null => cases b <;> simp [Value.beq]
  | .bool x => cases b <;> simp [Value.beq]
  | .string s => cases b <;> simp [Value.beq]
  | .number m =>
      cases b with
      | number n =>
          rw [Value.beq, Value.number.injEq]
          exact Number.beq_iff h
      | _ => exact iff_of_false Bool.false_ne_true nofun
  | .array items =>
      cases b with
      | array others =>
          rw [Value.beq, Value.array.injEq]
          exact beqItems_iff h others
      | _ => exact iff_of_false Bool.false_ne_true nofun
  | .object fields =>
      cases b with
      | object others =>
          rw [Value.beq, Value.object.injEq]
          exact beqFields_iff h others
      | _ => exact iff_of_false Bool.false_ne_true nofun
termination_by structural a

theorem beqItems_iff {items : List Value} (h : AreDoubleFree items) (others : List Value) :
    Value.beqItems items others = true ↔ items = others := by
  match items, others with
  | [], [] => exact iff_of_true rfl rfl
  | [], _ :: _ => exact iff_of_false Bool.false_ne_true nofun
  | _ :: _, [] => exact iff_of_false Bool.false_ne_true nofun
  | item :: items, other :: others =>
      rw [Value.beqItems, Bool.and_eq_true, List.cons.injEq, Value.beq_iff h.1 other,
        beqItems_iff h.2 others]
termination_by structural items

theorem beqFields_iff {fields : List (String × Value)} (h : FieldsAreDoubleFree fields)
    (others : List (String × Value)) : Value.beqFields fields others = true ↔ fields = others := by
  match fields, others with
  | [], [] => exact iff_of_true rfl rfl
  | [], _ :: _ => exact iff_of_false Bool.false_ne_true nofun
  | _ :: _, [] => exact iff_of_false Bool.false_ne_true nofun
  | (key, value) :: fields, (other, otherValue) :: others =>
      rw [Value.beqFields, Bool.and_eq_true, Bool.and_eq_true, List.cons.injEq, Prod.mk.injEq,
        Value.beq_iff h.1 otherValue, beqFields_iff h.2 others, beq_iff_eq]
termination_by structural fields

end

end IdlTypings.Json
