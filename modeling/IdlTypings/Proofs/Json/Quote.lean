import IdlTypings.Json.Escape
import IdlTypings.Json.Reader
import Mathlib.Tactic.SplitIfs

/-!
# Quoted strings are read back

What the reader of strings makes of a quoted string, whatever stands behind it.
-/

namespace IdlTypings.Json

/-- What was read goes on with `c` at its start. -/
def Reading.after (c : Char) : Reading (List Char × List Char) → Reading (List Char × List Char)
  | .error e => .error e
  | .ok (chars, rest) => .ok (c :: chars, rest)

theorem readString_skip_append (escape rest : List Char) :
    readString escape.length (escape ++ rest) = readString 0 rest := by
  induction escape with
  | nil => rfl
  | cons c escape ih =>
      rw [List.length_cons, List.cons_append, readString]
      exact ih

/-- An escape is the backslash and what `readEscape` takes. -/
theorem readString_escape {c : Char} {escape rest : List Char}
    (h : readEscape (escape ++ rest) = .ok (c, escape.length)) :
    readString 0 ('\\' :: escape ++ rest) = (readString 0 rest).after c := by
  rw [List.cons_append, readString, if_neg (by decide), if_pos rfl, h]
  simp only [readString_skip_append]
  rfl

theorem readString_plain {c : Char} (hmark : c ≠ '"') (hslash : c ≠ '\\') (hlow : ¬ c < ' ')
    (rest : List Char) : readString 0 (c :: rest) = (readString 0 rest).after c := by
  rw [readString, if_neg hmark, if_neg hslash, if_neg hlow]
  rfl

theorem hexFour?_control :
    ∀ n < 32, hexFour? '0' '0' (hexDigit (n / 16)) (hexDigit (n % 16)) = some n := by
  decide

theorem readHexFour_eq_ok {a b c d : Char} {n : Nat} (h : hexFour? a b c d = some n)
    (rest : List Char) : readHexFour (a :: b :: c :: d :: rest) = .ok (n, rest) := by
  have hbytes : ¬ byteLength (a :: b :: c :: d :: rest) < 4 := by
    have ha := a.utf8Size_pos
    have hb := b.utf8Size_pos
    have hc := c.utf8Size_pos
    have hd := d.utf8Size_pos
    simp only [byteLength]
    omega
  rw [readHexFour, if_neg hbytes]
  simp only [h]

theorem readEscape_control {c : Char} (h : c < ' ') (rest : List Char) :
    readEscape ('u' :: '0' :: '0' :: hexDigit (c.toNat / 16) :: hexDigit (c.toNat % 16) :: rest) =
      .ok (c, 5) := by
  have hlow : c.toNat < 32 := h
  have hlowSurrogate : isLowSurrogate c.toNat = false := by
    simp only [isLowSurrogate, Bool.and_eq_false_imp, decide_eq_true_eq]
    omega
  have hhighSurrogate : isHighSurrogate c.toNat = false := by
    simp only [isHighSurrogate, Bool.and_eq_false_imp, decide_eq_true_eq]
    omega
  simp only [readEscape, readHexFour_eq_ok (hexFour?_control _ hlow), hlowSurrogate,
    hhighSurrogate, Char.ofNat_toNat, bind, Except.bind, pure, Except.pure, Bool.false_eq_true,
    if_false]

theorem readString_escapeChar (c : Char) (rest : List Char) :
    readString 0 (escapeChar c ++ rest) = (readString 0 rest).after c := by
  unfold escapeChar
  split_ifs with hmark hslash hbackspace hfeed hline hreturn htab hlow
  iterate 7
    · subst_vars
      exact readString_escape rfl
  · exact readString_escape (readEscape_control hlow rest)
  · exact readString_plain hmark hslash hlow rest

/-- **A quoted string is read back.** What follows it stays unread. -/
theorem readString_quoteChars (s rest : List Char) :
    readString 0 (s.flatMap escapeChar ++ '"' :: rest) = .ok (s, rest) := by
  induction s with
  | nil => rfl
  | cons c s ih =>
      rw [List.flatMap_cons, List.append_assoc, readString_escapeChar, ih]
      rfl

end IdlTypings.Json
