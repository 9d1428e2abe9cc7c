import IdlTypings.Json.Pretty
import IdlTypings.Proofs.Text.Lines
import Mathlib.Data.Char
import Mathlib.Tactic.SplitIfs

/-!
# The lines of a dump

A dump has no control characters but its line feeds, and the first character of a line that is not a
blank is never a backtick, whatever strings and numbers the value holds. To see this character by
character, one has to know only whether there was nothing but blanks since the last line feed.
-/

namespace IdlTypings.Json

/-- A character that shows and is no backtick. -/
def IsPlain (c : Char) : Prop := ' ' < c ∧ c ≠ '`'

instance (c : Char) : Decidable (IsPlain c) :=
  inferInstanceAs (Decidable (_ ∧ _))

theorem IsPlain.blank_le {c : Char} (h : IsPlain c) : ' ' ≤ c := le_of_lt h.1

/-- From the blank on there are no control characters. -/
theorem ne_of_blank_le {c control : Char} (h : ' ' ≤ c) (hcontrol : control < ' ') : c ≠ control :=
  (Char.ne_of_lt (lt_of_lt_of_le hcontrol h)).symm

/-- A place in a line: at the margin there have been only blanks. -/
inductive Column where
  | margin
  | inside

/-- A text that leads from one place in a line to another. Each of its lines begins with a plain
character, behind the blanks, and has no control characters. -/
inductive Leads : Column → List Char → Column → Prop where
  | nil (column : Column) : Leads column [] column
  | blank {text : List Char} {last : Column} (tail : Leads .margin text last) :
      Leads .margin (' ' :: text) last
  | first {c : Char} {text : List Char} {last : Column} (h : IsPlain c)
      (tail : Leads .inside text last) : Leads .margin (c :: text) last
  | inner {c : Char} {text : List Char} {last : Column} (h : ' ' ≤ c)
      (tail : Leads .inside text last) : Leads .inside (c :: text) last
  | lineFeed {text : List Char} {last : Column} (tail : Leads .margin text last) :
      Leads .inside ('\n' :: text) last

section Leads

variable {a b c : Column} {text more : List Char}

theorem Leads.append (first : Leads a text b) (second : Leads b more c) :
    Leads a (text ++ more) c := by
  induction first with
  | nil => exact second
  | blank _ ih => exact .blank (ih second)
  | first h _ ih => exact .first h (ih second)
  | inner h _ ih => exact .inner h (ih second)
  | lineFeed _ ih => exact .lineFeed (ih second)

theorem Leads.split (h : Leads a (text ++ more) c) : ∃ b, Leads a text b ∧ Leads b more c := by
  induction text generalizing a with
  | nil => exact ⟨a, .nil a, h⟩
  | cons c text ih =>
      cases h with
      | blank tail =>
          obtain ⟨b, htext, hmore⟩ := ih tail
          exact ⟨b, .blank htext, hmore⟩
      | first h tail =>
          obtain ⟨b, htext, hmore⟩ := ih tail
          exact ⟨b, .first h htext, hmore⟩
      | inner h tail =>
          obtain ⟨b, htext, hmore⟩ := ih tail
          exact ⟨b, .inner h htext, hmore⟩
      | lineFeed tail =>
          obtain ⟨b, htext, hmore⟩ := ih tail
          exact ⟨b, .lineFeed htext, hmore⟩

/-! ### What such a text cannot hold -/

theorem Leads.carriageReturn_notMem (h : Leads a text b) : '\r' ∉ text := by
  induction h with
  | nil => exact List.not_mem_nil
  | blank _ ih => exact List.not_mem_cons_of_ne_of_not_mem (by decide) ih
  | first h _ ih =>
      exact List.not_mem_cons_of_ne_of_not_mem (ne_of_blank_le h.blank_le (by decide)).symm ih
  | inner h _ ih =>
      exact List.not_mem_cons_of_ne_of_not_mem (ne_of_blank_le h (by decide)).symm ih
  | lineFeed _ ih => exact List.not_mem_cons_of_ne_of_not_mem (by decide) ih

/-- A text that ends inside a line does not end in a line feed. -/
theorem Leads.getLast?_ne (h : Leads a text .inside) : text.getLast? ≠ some '\n' := by
  intro hlast
  obtain ⟨init, rfl⟩ := List.getLast?_eq_some_iff.mp hlast
  obtain ⟨b, -, hfeed⟩ := h.split
  cases hfeed with
  | first h _ => exact absurd h (by decide)
  | inner h _ => exact absurd h (by decide)
  | lineFeed tail => cases tail

/-- What stands behind the blanks of a line. -/
def content (line : List Char) : List Char := line.dropWhile (· = ' ')

theorem content_cons_of_ne {c : Char} (h : c ≠ ' ') (line : List Char) :
    content (c :: line) = c :: line :=
  List.dropWhile_cons_of_neg (by simpa using h)

/-- No line that begins in the text begins with a backtick. -/
theorem Leads.head?_content_ne (h : Leads a text b) :
    (∀ line ∈ (Text.splitBreaks text).2, (content line).head? ≠ some '`') ∧
      (a = .margin → (content (Text.splitBreaks text).1).head? ≠ some '`') := by
  induction h with
  | nil => exact ⟨nofun, fun _ => nofun⟩
  | blank _ ih =>
      rw [Text.splitBreaks_cons_of_ne (by decide)]
      exact ⟨ih.1, fun _ => ih.2 rfl⟩
  | first h _ ih =>
      rw [Text.splitBreaks_cons_of_ne (ne_of_blank_le h.blank_le (by decide))]
      refine ⟨ih.1, fun _ => ?_⟩
      rw [content_cons_of_ne (Char.ne_of_lt h.1).symm, List.head?_cons]
      exact mt Option.some_inj.mp h.2
  | inner h _ ih =>
      rw [Text.splitBreaks_cons_of_ne (ne_of_blank_le h (by decide))]
      exact ⟨ih.1, nofun⟩
  | lineFeed _ ih =>
      refine ⟨?_, nofun⟩
      rintro line (_ | ⟨_, hline⟩)
      · exact ih.2 rfl
      · exact ih.1 line hline

end Leads

/-! ### Parts of a dump -/

/-- A text without control characters. -/
def Shows (text : List Char) : Prop := ∀ c ∈ text, ' ' ≤ c

-- By name, because a search may come upon one that goes through all characters.
instance : DecidablePred Shows := List.decidableBAll (' ' ≤ ·)

theorem Leads.inside {text : List Char} (h : Shows text) : Leads .inside text .inside := by
  induction text with
  | nil => exact .nil _
  | cons c text ih =>
      obtain ⟨hc, htext⟩ := List.forall_mem_cons.mp h
      exact .inner hc (ih htext)

theorem Leads.start (column : Column) {c : Char} {rest : List Char} (hc : IsPlain c)
    (hrest : Shows rest) : Leads column (c :: rest) .inside := by
  cases column with
  | margin => exact .first hc (.inside hrest)
  | inside => exact .inner hc.blank_le (.inside hrest)

theorem leads_lineBreak (depth : Nat) : Leads .inside (lineBreak depth).toList .margin := by
  have hblanks : ∀ n, Leads .margin (List.replicate n ' ') .margin := by
    intro n
    induction n with
    | zero => exact .nil _
    | succ n ih => exact .blank ih
  rw [lineBreak, String.toList_ofList]
  exact .lineFeed (hblanks _)

/-! ### Quoted strings -/

theorem shows_escapeChar (c : Char) : Shows (escapeChar c) := by
  have hcontrol : ∀ n < 32,
      Shows ['\\', 'u', '0', '0', hexDigit (n / 16), hexDigit (n % 16)] := by decide
  unfold escapeChar
  split_ifs with hmark hslash hbackspace hfeed hline hreturn htab hlow
  iterate 7
    · decide
  · exact hcontrol c.toNat hlow
  · intro d hd
    rw [List.mem_singleton.mp hd]
    exact not_lt.mp hlow

theorem leads_quote (column : Column) (s : String) : Leads column (quote s).toList .inside := by
  rw [quote, String.toList_ofList, quoteChars, List.cons_append]
  apply Leads.start column (by decide)
  rintro d hd
  obtain hd | hd := List.mem_append.mp hd
  · obtain ⟨c, -, hd⟩ := List.mem_flatMap.mp hd
    exact shows_escapeChar c d hd
  · rw [List.mem_singleton.mp hd]
    decide

/-! ### Numbers -/

def ArePlain (text : List Char) : Prop := ∀ c ∈ text, IsPlain c

instance : DecidablePred ArePlain := List.decidableBAll IsPlain

/-- Plain characters, and at least one. -/
def IsWord (text : List Char) : Prop := text ≠ [] ∧ ArePlain text

instance (text : List Char) : Decidable (IsWord text) :=
  inferInstanceAs (Decidable (_ ∧ _))

theorem IsWord.leads {text : List Char} (h : IsWord text) (column : Column) :
    Leads column text .inside := by
  obtain ⟨hsome, hplain⟩ := h
  cases text with
  | nil => exact absurd rfl hsome
  | cons c rest =>
      obtain ⟨hc, hrest⟩ := List.forall_mem_cons.mp hplain
      exact .start column hc fun d hd => (hrest d hd).blank_le

section ArePlain

variable {text more : List Char}

theorem ArePlain.append (htext : ArePlain text) (hmore : ArePlain more) : ArePlain (text ++ more) :=
  List.forall_mem_append.mpr ⟨htext, hmore⟩

theorem ArePlain.cons {c : Char} (hc : IsPlain c) (h : ArePlain text) : ArePlain (c :: text) :=
  List.forall_mem_cons.mpr ⟨hc, h⟩

theorem ArePlain.take (h : ArePlain text) (n : Nat) : ArePlain (text.take n) :=
  fun c hc => h c (List.mem_of_mem_take hc)

theorem ArePlain.drop (h : ArePlain text) (n : Nat) : ArePlain (text.drop n) :=
  fun c hc => h c (List.mem_of_mem_drop hc)

end ArePlain

theorem isPlain_of_isDigit {c : Char} (h : c.isDigit = true) : IsPlain c := by
  obtain ⟨hlow, -⟩ := Bool.and_eq_true_iff.mp h
  have hzero : '0' ≤ c := of_decide_eq_true hlow
  refine ⟨lt_of_lt_of_le (by decide) hzero, ?_⟩
  rintro rfl
  exact absurd h (by decide)

theorem arePlain_toDigits (n : Nat) : ArePlain (Nat.toDigits 10 n) := fun _ hc =>
  isPlain_of_isDigit (Nat.isDigit_of_mem_toDigits (by decide) (by decide) hc)

theorem isWord_toDigits (n : Nat) : IsWord (Nat.toDigits 10 n) :=
  ⟨Nat.toDigits_ne_nil, arePlain_toDigits n⟩

theorem arePlain_zeros (n : Nat) : ArePlain (List.replicate n '0') := by
  intro c hc
  rw [List.eq_of_mem_replicate hc]
  decide

theorem isWord_positionalText {digits : List Char} (h : ArePlain digits) (leading : Int) :
    IsWord (Decimal.positionalText digits leading) := by
  unfold Decimal.positionalText
  split
  · have hstart : ArePlain ['0', '.'] := by decide
    exact ⟨List.cons_ne_nil _ _, (hstart.append (arePlain_zeros _)).append h⟩
  · have hpoint : ArePlain ['.'] := by decide
    have hfraction : ∀ n,
        ArePlain (if (digits.drop n).isEmpty then ['0'] else digits.drop n) := by
      intro n
      split
      · decide
      · exact h.drop n
    exact ⟨by simp, (((h.take _).append (arePlain_zeros _)).append hpoint).append (hfraction _)⟩

theorem isWord_exponentText {digits : List Char} (h : ArePlain digits) (leading : Int) :
    IsWord (Decimal.exponentText digits leading) := by
  have hfraction : ArePlain (if (digits.drop 1).isEmpty then [] else '.' :: digits.drop 1) := by
    split
    · decide
    · exact (h.drop 1).cons (by decide)
  have hmark : ArePlain ['e'] := by decide
  have hsign : ArePlain [if leading < 0 then '-' else '+'] := by
    split <;> decide
  have hexponent := arePlain_toDigits leading.natAbs
  refine ⟨by simp [Decimal.exponentText], ?_⟩
  exact ((((h.take 1).append hfraction).append hmark).append hsign).append hexponent

theorem isWord_scientific (layout : Decimal.Layout) (d : Decimal.Scientific) :
    IsWord (d.text layout) := by
  simp only [Decimal.Scientific.text]
  split
  · exact isWord_positionalText (arePlain_toDigits _) _
  · exact isWord_exponentText (arePlain_toDigits _) _

theorem isWord_signed {text : List Char} (h : IsWord text) (negative : Bool) :
    IsWord (Decimal.signed negative text).toList := by
  rw [Decimal.signed, String.toList_ofList]
  split
  · exact ⟨List.cons_ne_nil _ _, h.2.cons (by decide)⟩
  · exact h

theorem isWord_number (n : Number) : IsWord n.text.toList := by
  have hzero : IsWord ['0', '.', '0'] := by decide
  have hinfinite : IsWord ['i', 'n', 'f'] := by decide
  cases n with
  | integer n =>
      rw [Number.text, Int.toString_eq_repr, Int.repr_eq_if]
      split
      · rw [Nat.toList_repr]
        exact isWord_toDigits _
      · rw [String.toList_append, Nat.toList_repr]
        exact ⟨List.cons_ne_nil _ _, (arePlain_toDigits _).cons (by decide)⟩
  | double x =>
      rw [Number.text]
      cases Decimal.Double.ofFloat x with
      | zero negative => exact isWord_signed hzero negative
      | finite negative magnitude => exact isWord_signed (isWord_scientific _ _) negative
      | infinite negative => exact isWord_signed hinfinite negative
      | nan => exact (by decide : IsWord "NaN".toList)

/-! ### The whole dump -/

mutual

/-- Wherever in a line a value begins, it ends inside a line. -/
theorem leads_pretty (column : Column) (depth : Nat) (v : Value) :
    Leads column (v.pretty depth).toList .inside := by
  match v with
  | .null => exact (show IsWord "null".toList by decide).leads column
  | .bool true => exact (show IsWord "true".toList by decide).leads column
  | .bool false => exact (show IsWord "false".toList by decide).leads column
  | .number n => exact (isWord_number n).leads column
  | .string s => exact leads_quote column s
  | .array [] => exact (show IsWord "[]".toList by decide).leads column
  | .array (item :: items) =>
      have hopen : Leads column "[".toList .inside := .start column (by decide) (by decide)
      have hclose : Leads .margin "]".toList .inside := .start .margin (by decide) (by decide)
      have hbreak := hopen.append (leads_lineBreak (depth + 1))
      have hitem := hbreak.append (leads_pretty .margin (depth + 1) item)
      have hitems := hitem.append (leads_prettyItems (depth + 1) items)
      rw [Value.pretty]
      simp only [String.toList_append]
      exact (hitems.append (leads_lineBreak depth)).append hclose
  | .object [] => exact (show IsWord "\x7b\x7d".toList by decide).leads column
  | .object ((key, value) :: fields) =>
      have hopen : Leads column "\x7b".toList .inside := .start column (by decide) (by decide)
      have hclose : Leads .margin "\x7d".toList .inside := .start .margin (by decide) (by decide)
      have hcolon : Leads .inside ": ".toList .inside := .inside (by decide)
      have hkey := (hopen.append (leads_lineBreak (depth + 1))).append (leads_quote .margin key)
      have hvalue := (hkey.append hcolon).append (leads_pretty .inside (depth + 1) value)
      have hfields := hvalue.append (leads_prettyFields (depth + 1) fields)
      rw [Value.pretty]
      simp only [String.toList_append]
      exact (hfields.append (leads_lineBreak depth)).append hclose
termination_by structural v

theorem leads_prettyItems (depth : Nat) (items : List Value) :
    Leads .inside (Value.prettyItems depth items).toList .inside := by
  match items with
  | [] => exact .nil _
  | item :: items =>
      have hcomma : Leads .inside ",".toList .inside := .inside (by decide)
      have hitem := (hcomma.append (leads_lineBreak depth)).append (leads_pretty .margin depth item)
      rw [Value.prettyItems]
      simp only [String.toList_append]
      exact hitem.append (leads_prettyItems depth items)
termination_by structural items

theorem leads_prettyFields (depth : Nat) (fields : List (String × Value)) :
    Leads .inside (Value.prettyFields depth fields).toList .inside := by
  match fields with
  | [] => exact .nil _
  | (key, value) :: fields =>
      have hcomma : Leads .inside ",".toList .inside := .inside (by decide)
      have hcolon : Leads .inside ": ".toList .inside := .inside (by decide)
      have hkey := (hcomma.append (leads_lineBreak depth)).append (leads_quote .margin key)
      have hvalue := (hkey.append hcolon).append (leads_pretty .inside depth value)
      rw [Value.prettyFields]
      simp only [String.toList_append]
      exact hvalue.append (leads_prettyFields depth fields)
termination_by structural fields

end

theorem leads_dump (v : Value) : Leads .margin v.dump.toList .inside :=
  leads_pretty .margin 0 v

/-- No line of a dump begins with a backtick, behind its blanks. -/
theorem head?_content_ne_of_mem_dump {v : Value} {line : List Char}
    (h : line ∈ Text.pieces v.dump.toList) : (content line).head? ≠ some '`' := by
  obtain ⟨hothers, hfirst⟩ := (leads_dump v).head?_content_ne
  obtain rfl | h := List.mem_cons.mp h
  · exact hfirst rfl
  · exact hothers line h

/-- The lines of a dump are what stands between its line feeds. -/
theorem lines_dump (v : Value) : Text.lines v.dump.toList = Text.pieces v.dump.toList := by
  have hleads := leads_dump v
  cases hlast : v.dump.toList.getLast? with
  | none =>
      rw [List.getLast?_eq_none_iff.mp hlast] at hleads
      cases hleads
  | some c =>
      refine Text.lines_eq_pieces hleads.carriageReturn_notMem hlast ?_
      rintro rfl
      exact hleads.getLast?_ne hlast

end IdlTypings.Json
