import IdlTypings.Json.Reader

/-!
# Integers are read back

What the reader of numerals makes of the digits of an integer, whatever stands behind them, as long
as it does not go on with the numeral. The value is the integer itself if a word of 64 bits has room
for it, a signed one for a negative integer.
-/

namespace IdlTypings.Json

/-- What stands behind a whole numeral: no digit, point or exponent. -/
def EndsNumeral : List Char → Prop
  | [] => True
  | c :: _ => c.isDigit = false ∧ c ≠ '.' ∧ c ≠ 'e' ∧ c ≠ 'E'

/-- The integers that fit a word of 64 bits, with a sign or without one. -/
def FitsWord (n : Int) : Prop := -(wordLimit / 2 : Nat) ≤ n ∧ n < wordLimit

instance (n : Int) : Decidable (FitsWord n) :=
  inferInstanceAs (Decidable (_ ∧ _))

/-! ### The value of digits -/

theorem le_ofDigitChars (digits : List Char) (n : Nat) : n ≤ Nat.ofDigitChars 10 digits n := by
  induction digits generalizing n with
  | nil => exact Nat.le_refl n
  | cons c digits ih =>
      rw [Nat.ofDigitChars_cons]
      calc n ≤ 10 * n + (c.toNat - '0'.toNat) := by omega
        _ ≤ Nat.ofDigitChars 10 digits (10 * n + (c.toNat - '0'.toNat)) := ih _

/-- No digit is dropped while the value of all of them fits. -/
theorem foldl_wholeDigit {digits : List Char} {n : Nat}
    (h : Nat.ofDigitChars 10 digits n < wordLimit) :
    digits.foldl Scaled.wholeDigit ⟨n, 0⟩ = ⟨Nat.ofDigitChars 10 digits n, 0⟩ := by
  induction digits generalizing n with
  | nil => rfl
  | cons c digits ih =>
      rw [Nat.ofDigitChars_cons] at h ⊢
      have hnext : 10 * n + digitValue c < wordLimit := Nat.lt_of_le_of_lt (le_ofDigitChars digits _) h
      rw [List.foldl_cons, Scaled.wholeDigit]
      simp only [if_pos (And.intro trivial hnext)]
      exact ih h

theorem ofWhole_toDigits {n : Nat} (h : n < wordLimit) :
    Scaled.ofWhole (Nat.toDigits 10 n) = ⟨n, 0⟩ := by
  have hvalue : Nat.ofDigitChars 10 (Nat.toDigits 10 n) 0 = n := Nat.ofDigitChars_ten_toDigits
  rw [Scaled.ofWhole, foldl_wholeDigit (by rwa [hvalue]), hvalue]

/-! ### Digits and what follows them -/

theorem isDigit_of_mem_toDigits {n : Nat} : ∀ c ∈ Nat.toDigits 10 n, c.isDigit = true := by
  intro c hc
  exact Nat.isDigit_of_mem_toDigits (by decide) (by decide) hc

theorem digitChar_ne_zero : ∀ d < 10, 0 < d → Nat.digitChar d ≠ '0' := by decide

/-- Only zero is written with a zero in front. -/
theorem exists_toDigits_eq_cons {n : Nat} (h : 0 < n) :
    ∃ c digits, Nat.toDigits 10 n = c :: digits ∧ c ≠ '0' := by
  induction n using Nat.strongRecOn with
  | ind n ih =>
      by_cases hsmall : n < 10
      · exact ⟨_, [], Nat.toDigits_of_lt_base hsmall, digitChar_ne_zero n hsmall h⟩
      · obtain ⟨c, digits, hdigits, hc⟩ := ih (n / 10) (by omega) (by omega)
        rw [Nat.toDigits_of_base_le (by decide) (by omega), hdigits, List.cons_append]
        exact ⟨c, _, rfl, hc⟩

theorem takeWhile_isDigit_append {digits rest : List Char} (h : ∀ c ∈ digits, c.isDigit = true)
    (hrest : EndsNumeral rest) : (digits ++ rest).takeWhile Char.isDigit = digits := by
  rw [List.takeWhile_append_of_pos h]
  cases rest with
  | nil => exact List.append_nil _
  | cons c rest => rw [List.takeWhile_cons_of_neg (by simp [hrest.1]), List.append_nil]

theorem dropWhile_isDigit_append {digits rest : List Char} (h : ∀ c ∈ digits, c.isDigit = true)
    (hrest : EndsNumeral rest) : (digits ++ rest).dropWhile Char.isDigit = rest := by
  rw [List.dropWhile_append_of_pos h]
  cases rest with
  | nil => rfl
  | cons c rest => exact List.dropWhile_cons_of_neg (by simp [hrest.1])

theorem readAfterWhole_of_endsNumeral {rest : List Char} (h : EndsNumeral rest) (negative : Bool)
    (n : Nat) :
    readAfterWhole negative ⟨n, 0⟩ rest = .ok (.ofMagnitude negative n, rest) := by
  unfold readAfterWhole
  split
  · exact absurd rfl h.2.1
  · exact absurd rfl h.2.2.1
  · exact absurd rfl h.2.2.2
  · rfl

/-! ### Numerals -/

theorem readNumber_toDigits {n : Nat} {rest : List Char} (h : n < wordLimit)
    (hrest : EndsNumeral rest) (negative : Bool) :
    readNumber negative (Nat.toDigits 10 n ++ rest) = .ok (.ofMagnitude negative n, rest) := by
  obtain rfl | hpos := Nat.eq_zero_or_pos n
  · have hempty : rest.takeWhile Char.isDigit = [] :=
      @takeWhile_isDigit_append [] rest nofun hrest
    rw [Nat.toDigits_zero, List.singleton_append, readNumber, hempty]
    exact readAfterWhole_of_endsNumeral hrest negative 0
  · have hdigits := isDigit_of_mem_toDigits (n := n)
    have hsome : (Nat.toDigits 10 n).isEmpty = false :=
      List.isEmpty_eq_false_iff.mpr Nat.toDigits_ne_nil
    unfold readNumber
    split
    · rename_i hzero
      obtain ⟨c, digits, hcons, hc⟩ := exists_toDigits_eq_cons hpos
      rw [hcons] at hzero
      exact absurd (List.cons.inj hzero).1 hc
    · simp only [takeWhile_isDigit_append hdigits hrest, dropWhile_isDigit_append hdigits hrest,
        hsome, ofWhole_toDigits h]
      exact readAfterWhole_of_endsNumeral hrest negative n

end IdlTypings.Json
