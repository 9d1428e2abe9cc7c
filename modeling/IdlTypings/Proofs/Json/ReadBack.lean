import IdlTypings.Json.Pretty
import IdlTypings.Proofs.Json.Exact
import IdlTypings.Proofs.Json.Quote
import Mathlib.Data.List.DropRight

/-!
# Values are read back

What the reader makes of the indented text of an exact value, whatever stands behind it. Blanks are
skipped wherever the writer puts them, so indentation does not matter, and the containers that the
reader lets be nested are those of the value.
-/

namespace IdlTypings.Json

/-! ### Blanks -/

theorem skipBlank_skipBlank (text : List Char) : skipBlank (skipBlank text) = skipBlank text :=
  List.dropWhile_idempotent _ _

theorem skipBlank_cons {c : Char} (h : isBlank c = false) (text : List Char) :
    skipBlank (c :: text) = c :: text :=
  List.dropWhile_cons_of_neg (ne_true_of_eq_false h)

theorem skipBlank_lineBreak (n : Nat) (text : List Char) :
    skipBlank ((lineBreak n).toList ++ text) = skipBlank text := by
  rw [lineBreak, String.toList_ofList, skipBlank]
  apply List.dropWhile_append_of_pos
  intro c hc
  obtain rfl | hblank := List.mem_cons.mp hc
  · rfl
  · rw [List.eq_of_mem_replicate hblank]
    rfl

theorem endsNumeral_cons {c : Char} (h : c.isDigit = false ∧ c ≠ '.' ∧ c ≠ 'e' ∧ c ≠ 'E')
    (text : List Char) : EndsNumeral (c :: text) := h

theorem endsNumeral_lineBreak (n : Nat) (text : List Char) :
    EndsNumeral ((lineBreak n).toList ++ text) := by
  rw [lineBreak, String.toList_ofList, List.cons_append]
  exact endsNumeral_cons (by decide) _

theorem readValue_skipBlank (depth : Nat) (text : List Char) :
    readValue depth (skipBlank text) = readValue depth text := by
  unfold readValue
  rw [skipBlank_skipBlank]

theorem readValue_lineBreak (depth n : Nat) (text : List Char) :
    readValue depth ((lineBreak n).toList ++ text) = readValue depth text := by
  rw [← readValue_skipBlank, skipBlank_lineBreak, readValue_skipBlank]

theorem readValue_blank (depth : Nat) (text : List Char) :
    readValue depth (' ' :: text) = readValue depth text := by
  rw [← readValue_skipBlank, ← readValue_skipBlank depth text]
  rfl

/-! ### Integers -/

section Integers

variable {rest : List Char}

theorem isBlank_of_isDigit {c : Char} (h : c.isDigit = true) : isBlank c = false := by
  cases hblank : isBlank c with
  | false => rfl
  | true =>
      simp only [isBlank, Bool.or_eq_true, decide_eq_true_eq] at hblank
      obtain ((rfl | rfl) | rfl) | rfl := hblank <;> exact absurd h (by decide)

theorem readValue_of_isDigit {c : Char} {number : Number} {text : List Char}
    (h : c.isDigit = true) (hnumber : readNumber false (c :: text) = .ok (number, rest))
    (depth : Nat) : readValue depth (c :: text) = .ok (.number number, rest) := by
  unfold readValue
  rw [skipBlank_cons (isBlank_of_isDigit h)]
  split
  case h_9 =>
    rename_i heq
    obtain ⟨rfl, rfl⟩ := List.cons.inj heq
    rw [if_pos h, hnumber]
    rfl
  all_goals
    rename_i heq
    cases heq <;> exact absurd h (by decide)

theorem readValue_minus {number : Number} {text : List Char}
    (hnumber : readNumber true text = .ok (number, rest)) (depth : Nat) :
    readValue depth ('-' :: text) = .ok (.number number, rest) := by
  unfold readValue
  simp only [skipBlank_cons (c := '-') rfl, hnumber]
  rfl

theorem ofMagnitude_true {m : Nat} (hpos : 0 < m) (hword : m ≤ wordLimit / 2) :
    Number.ofMagnitude true m = .integer (-m) := by
  have hinteger : ¬(m = 0 ∨ wordLimit / 2 < m) := by omega
  simp [Number.ofMagnitude, hinteger]

theorem readValue_natural {n : Nat} (h : n < wordLimit) (hrest : EndsNumeral rest) (depth : Nat) :
    readValue depth (Nat.toDigits 10 n ++ rest) = .ok (.number (.integer n), rest) := by
  have hnumber : readNumber false (Nat.toDigits 10 n ++ rest) = .ok (.integer n, rest) :=
    readNumber_toDigits h hrest false
  obtain ⟨c, digits, hdigits⟩ := List.exists_cons_of_ne_nil (Nat.toDigits_ne_nil (n := n) (b := 10))
  have hc : c.isDigit = true := isDigit_of_mem_toDigits c (hdigits ▸ List.mem_cons_self)
  rw [hdigits, List.cons_append] at hnumber ⊢
  exact readValue_of_isDigit hc hnumber depth

theorem readValue_integer {n : Int} (h : FitsWord n) (hrest : EndsNumeral rest) (depth : Nat) :
    readValue depth ((toString n).toList ++ rest) = .ok (.number (.integer n), rest) := by
  rw [Int.toString_eq_repr, Int.repr_eq_if]
  obtain ⟨hleast, hgreatest⟩ := h
  by_cases hsign : 0 ≤ n
  · rw [if_pos hsign, Nat.toList_repr, readValue_natural (by omega) hrest, Int.toNat_of_nonneg hsign]
  · have hread : readNumber true (Nat.toDigits 10 (-n).toNat ++ rest) = .ok (.integer n, rest) := by
      rw [readNumber_toDigits (by omega) hrest, ofMagnitude_true (by omega) (by omega)]
      congr 3
      omega
    rw [if_neg hsign, String.toList_append, Nat.toList_repr]
    exact readValue_minus hread depth

end Integers

/-! ### Items and fields -/

section Containers

variable {depth fuel : Nat} {text rest after : List Char}

/-- Where a value is read, there is something to read, and it does not close an array. -/
theorem skipBlank_of_readValue {value : Value} (h : readValue depth text = .ok (value, rest)) :
    ∃ c start, skipBlank text = c :: start ∧ c ≠ ']' ∧
      readValue depth (c :: start) = .ok (value, rest) := by
  rw [← readValue_skipBlank] at h
  cases hskip : skipBlank text with
  | nil =>
      rw [hskip] at h
      unfold readValue at h
      cases h
  | cons c start =>
      rw [hskip] at h
      refine ⟨c, start, rfl, ?_, h⟩
      rintro rfl
      unfold readValue at h
      cases h

theorem readItems_cons {item : Value} {items : List Value}
    (hitem : readValue depth text = .ok (item, rest))
    (hitems : readItems (readValue depth) fuel rest = .ok (items, after)) :
    readItems (readValue depth) (fuel + 1) (',' :: text) = .ok (item :: items, after) := by
  obtain ⟨c, start, hskip, hc, hstart⟩ := skipBlank_of_readValue hitem
  rw [readItems, skipBlank_cons rfl]
  simp only [hskip]
  split
  · rename_i h
    cases h
  · rename_i h
    exact absurd (List.cons.inj h).1 hc
  · simp only [hstart, hitems, bind, Except.bind, pure, Except.pure]

theorem readArray_cons {item : Value} {items : List Value}
    (hitem : readValue depth text = .ok (item, rest))
    (hitems : readItems (readValue depth) (rest.length + 1) rest = .ok (items, after)) :
    readArray (readValue depth) text = .ok (item :: items, after) := by
  obtain ⟨c, start, hskip, hc, hstart⟩ := skipBlank_of_readValue hitem
  rw [readArray]
  simp only [hskip]
  split
  · rename_i h
    cases h
  · rename_i h
    exact absurd (List.cons.inj h).1 hc
  · simp only [hstart, hitems, bind, Except.bind, pure, Except.pure]

theorem readField_quote {key : String} {value : Value}
    (hvalue : readValue depth text = .ok (value, rest)) :
    readField (readValue depth) (key.toList.flatMap escapeChar ++ '"' :: ':' :: ' ' :: text) =
      .ok ((key, value), rest) := by
  simp only [readField, readString_quoteChars, skipBlank_cons (c := ':') rfl, readValue_blank,
    hvalue, String.ofList_toList, bind, Except.bind, pure, Except.pure]

theorem readFields_cons {field : String × Value} {fields : List (String × Value)}
    {start : List Char} (hquote : skipBlank text = '"' :: start)
    (hfield : readField (readValue depth) start = .ok (field, rest))
    (hfields : readFields (readValue depth) fuel rest = .ok (fields, after)) :
    readFields (readValue depth) (fuel + 1) (',' :: text) = .ok (field :: fields, after) := by
  rw [readFields, skipBlank_cons rfl]
  simp only [hquote, hfield, hfields, bind, Except.bind, pure, Except.pure]

theorem readObject_cons {field : String × Value} {fields : List (String × Value)}
    {start : List Char} (hquote : skipBlank text = '"' :: start)
    (hfield : readField (readValue depth) start = .ok (field, rest))
    (hfields : readFields (readValue depth) (rest.length + 1) rest = .ok (fields, after)) :
    readObject (readValue depth) text = .ok (field :: fields, after) := by
  rw [readObject]
  simp only [hquote, hfield, hfields, bind, Except.bind, pure, Except.pure]

theorem readValue_array {items : List Value}
    (h : readArray (readValue depth) text = .ok (items, rest)) :
    readValue (depth + 1) ('[' :: text) = .ok (.array items, rest) := by
  unfold readValue
  simp only [skipBlank_cons (c := '[') rfl, h]
  rfl

theorem readValue_object {fields : List (String × Value)}
    (hascending : (fields.map Prod.fst).Pairwise (· < ·))
    (h : readObject (readValue depth) text = .ok (fields, rest)) :
    readValue (depth + 1) ('\x7b' :: text) = .ok (.object fields, rest) := by
  rw [← ofFields_of_pairwise hascending]
  unfold readValue
  simp only [skipBlank_cons (c := '\x7b') rfl, h]
  rfl

theorem readValue_string (s : String) (depth : Nat) (rest : List Char) :
    readValue depth ('"' :: (s.toList.flatMap escapeChar ++ '"' :: rest)) = .ok (.string s, rest) := by
  unfold readValue
  simp only [skipBlank_cons (c := '"') rfl, readString_quoteChars, bind, Except.bind, pure,
    Except.pure, String.ofList_toList]

end Containers

/-! ### Written text -/

section Written

variable (n : Nat) (rest : List Char)

theorem toList_quote_append (s : String) :
    (quote s).toList ++ rest = '"' :: (s.toList.flatMap escapeChar ++ '"' :: rest) := by
  simp [quote, quoteChars]

theorem toList_array_append (item : Value) (items : List Value) :
    ((Value.array (item :: items)).pretty n).toList ++ rest =
      '[' :: ((lineBreak (n + 1)).toList ++ ((item.pretty (n + 1)).toList ++
        ((Value.prettyItems (n + 1) items).toList ++ ((lineBreak n).toList ++ ']' :: rest)))) := by
  simp [Value.pretty]

theorem toList_prettyItems_append (item : Value) (items : List Value) :
    (Value.prettyItems n (item :: items)).toList ++ rest =
      ',' :: ((lineBreak n).toList ++ ((item.pretty n).toList ++
        ((Value.prettyItems n items).toList ++ rest))) := by
  simp [Value.prettyItems]

theorem toList_object_append (key : String) (value : Value) (fields : List (String × Value)) :
    ((Value.object ((key, value) :: fields)).pretty n).toList ++ rest =
      '\x7b' :: ((lineBreak (n + 1)).toList ++ '"' :: (key.toList.flatMap escapeChar ++
        '"' :: ':' :: ' ' :: ((value.pretty (n + 1)).toList ++
        ((Value.prettyFields (n + 1) fields).toList ++
        ((lineBreak n).toList ++ '\x7d' :: rest))))) := by
  simp [Value.pretty, ← toList_quote_append]

theorem toList_prettyFields_append (key : String) (value : Value)
    (fields : List (String × Value)) :
    (Value.prettyFields n ((key, value) :: fields)).toList ++ rest =
      ',' :: ((lineBreak n).toList ++ '"' :: (key.toList.flatMap escapeChar ++
        '"' :: ':' :: ' ' :: ((value.pretty n).toList ++
        ((Value.prettyFields n fields).toList ++ rest)))) := by
  simp [Value.prettyFields, ← toList_quote_append]

end Written

/-! ### Whole values -/

-- Each item and each field begins with a comma, so that the length of the text, which bounds how
-- many of them are read, is never less than their number.

theorem length_le_prettyItems (n : Nat) (items : List Value) :
    items.length ≤ (Value.prettyItems n items).toList.length := by
  induction items with
  | nil => exact Nat.le_refl 0
  | cons item items ih =>
      rw [← List.append_nil (Value.prettyItems n (item :: items)).toList, toList_prettyItems_append]
      simp only [List.length_cons, List.length_append]
      omega

theorem length_le_prettyFields (n : Nat) (fields : List (String × Value)) :
    fields.length ≤ (Value.prettyFields n fields).toList.length := by
  induction fields with
  | nil => exact Nat.le_refl 0
  | cons field fields ih =>
      rw [← List.append_nil (Value.prettyFields n (field :: fields)).toList,
        toList_prettyFields_append]
      simp only [List.length_cons, List.length_append]
      omega

theorem readItems_end (readItem : ValueReader) (fuel n : Nat) (rest : List Char) :
    readItems readItem (fuel + 1) ((lineBreak n).toList ++ ']' :: rest) = .ok ([], rest) := by
  rw [readItems, skipBlank_lineBreak]
  rfl

theorem readFields_end (readItem : ValueReader) (fuel n : Nat) (rest : List Char) :
    readFields readItem (fuel + 1) ((lineBreak n).toList ++ '\x7d' :: rest) = .ok ([], rest) := by
  rw [readFields, skipBlank_lineBreak]
  rfl

theorem endsNumeral_prettyItems (n m : Nat) (items : List Value) (rest : List Char) :
    EndsNumeral ((Value.prettyItems n items).toList ++ ((lineBreak m).toList ++ rest)) := by
  cases items with
  | nil => exact endsNumeral_lineBreak m rest
  | cons item items =>
      rw [toList_prettyItems_append]
      exact endsNumeral_cons (by decide) _

theorem endsNumeral_prettyFields (n m : Nat) (fields : List (String × Value)) (rest : List Char) :
    EndsNumeral ((Value.prettyFields n fields).toList ++ ((lineBreak m).toList ++ rest)) := by
  cases fields with
  | nil => exact endsNumeral_lineBreak m rest
  | cons field fields =>
      rw [toList_prettyFields_append]
      exact endsNumeral_cons (by decide) _

mutual

-- By induction on the value, its items and its fields. What follows them is arbitrary, up to the
-- end of a numeral, and `spare` is what remains of the bound on the depth.

theorem readValue_pretty (value : Value) (n : Nat) {depth : Nat} {rest : List Char}
    (hexact : value.IsExact) (hdepth : value.depth ≤ depth) (hrest : EndsNumeral rest) :
    readValue depth ((value.pretty n).toList ++ rest) = .ok (value, rest) := by
  match value with
  | .null | .bool true | .bool false =>
      simp only [Value.pretty, String.reduceToList, List.cons_append, List.nil_append]
      unfold readValue
      rfl
  | .number (.integer i) => exact readValue_integer hexact hrest depth
  | .string s =>
      rw [Value.pretty, toList_quote_append]
      exact readValue_string s depth rest
  | .array [] =>
      obtain ⟨spare, rfl⟩ := Nat.exists_eq_add_of_lt hdepth
      simp only [Value.pretty, String.reduceToList, List.cons_append, List.nil_append]
      apply readValue_array
      rfl
  | .array (item :: items) =>
      obtain ⟨spare, rfl⟩ := Nat.exists_eq_add_of_lt hdepth
      have hitem : item.depth ≤ itemsDepth (item :: items) + spare :=
        (Nat.le_max_left _ _).trans (Nat.le_add_right _ _)
      have hitems : itemsDepth items ≤ itemsDepth (item :: items) + spare :=
        (Nat.le_max_right _ _).trans (Nat.le_add_right _ _)
      rw [toList_array_append]
      apply readValue_array
      apply readArray_cons
      · rw [readValue_lineBreak]
        exact readValue_pretty item (n + 1) hexact.1 hitem (endsNumeral_prettyItems _ _ _ _)
      · apply readItems_prettyItems items (n + 1) n hexact.2 hitems
        have hlength := length_le_prettyItems (n + 1) items
        rw [List.length_append]
        omega
  | .object [] =>
      obtain ⟨spare, rfl⟩ := Nat.exists_eq_add_of_lt hdepth
      simp only [Value.pretty, String.reduceToList, List.cons_append, List.nil_append]
      apply readValue_object hexact.1
      rfl
  | .object ((key, value) :: fields) =>
      obtain ⟨spare, rfl⟩ := Nat.exists_eq_add_of_lt hdepth
      have hvalue : value.depth ≤ fieldsDepth ((key, value) :: fields) + spare :=
        (Nat.le_max_left _ _).trans (Nat.le_add_right _ _)
      have hfields : fieldsDepth fields ≤ fieldsDepth ((key, value) :: fields) + spare :=
        (Nat.le_max_right _ _).trans (Nat.le_add_right _ _)
      obtain ⟨hascending, hexactValue, hexactFields⟩ := hexact
      rw [toList_object_append]
      apply readValue_object hascending
      apply readObject_cons
      · rw [skipBlank_lineBreak]
        exact skipBlank_cons rfl _
      · apply readField_quote
        exact readValue_pretty value (n + 1) hexactValue hvalue (endsNumeral_prettyFields _ _ _ _)
      · apply readFields_prettyFields fields (n + 1) n hexactFields hfields
        have hlength := length_le_prettyFields (n + 1) fields
        rw [List.length_append]
        omega
termination_by structural value

theorem readItems_prettyItems (items : List Value) (n m : Nat) {depth fuel : Nat}
    {rest : List Char} (hexact : AreExact items) (hdepth : itemsDepth items ≤ depth)
    (hfuel : items.length < fuel) :
    readItems (readValue depth) fuel
      ((Value.prettyItems n items).toList ++ ((lineBreak m).toList ++ ']' :: rest)) =
        .ok (items, rest) := by
  obtain ⟨spare, rfl⟩ := Nat.exists_eq_add_of_lt hfuel
  match items with
  | [] => exact readItems_end _ _ m rest
  | item :: items =>
      rw [toList_prettyItems_append]
      apply readItems_cons
      · rw [readValue_lineBreak]
        exact readValue_pretty item n hexact.1 ((Nat.le_max_left _ _).trans hdepth)
          (endsNumeral_prettyItems _ _ _ _)
      · apply readItems_prettyItems items n m hexact.2 ((Nat.le_max_right _ _).trans hdepth)
        rw [List.length_cons]
        omega
termination_by structural items

theorem readFields_prettyFields (fields : List (String × Value)) (n m : Nat) {depth fuel : Nat}
    {rest : List Char} (hexact : FieldsAreExact fields) (hdepth : fieldsDepth fields ≤ depth)
    (hfuel : fields.length < fuel) :
    readFields (readValue depth) fuel
      ((Value.prettyFields n fields).toList ++ ((lineBreak m).toList ++ '\x7d' :: rest)) =
        .ok (fields, rest) := by
  obtain ⟨spare, rfl⟩ := Nat.exists_eq_add_of_lt hfuel
  match fields with
  | [] => exact readFields_end _ _ m rest
  | (key, value) :: fields =>
      rw [toList_prettyFields_append]
      apply readFields_cons
      · rw [skipBlank_lineBreak]
        exact skipBlank_cons rfl _
      · apply readField_quote
        exact readValue_pretty value n hexact.1 ((Nat.le_max_left _ _).trans hdepth)
          (endsNumeral_prettyFields _ _ _ _)
      · apply readFields_prettyFields fields n m hexact.2 ((Nat.le_max_right _ _).trans hdepth)
        rw [List.length_cons]
        omega
termination_by structural fields

end

/-- **A dump is read back.** An exact value is what its dump is read as, if the reader lets
containers be nested as deep as they are in it. -/
theorem parse_dump {value : Value} {depth : Nat} (hexact : value.IsExact)
    (hdepth : value.depth ≤ depth) : parse depth value.dump = .ok value := by
  have hread : readValue depth value.dump.toList = .ok (value, []) := by
    rw [← List.append_nil value.dump.toList]
    exact readValue_pretty value 0 hexact hdepth trivial
  have hdocument : readDocument depth value.dump.toList = .ok value := by
    simp only [readDocument, hread, bind, Except.bind, pure, Except.pure]
    rfl
  rw [parse, hdocument]

end IdlTypings.Json
