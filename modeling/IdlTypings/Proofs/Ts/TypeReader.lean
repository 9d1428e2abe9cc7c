import IdlTypings.Proofs.Json.Quote
import IdlTypings.Proofs.Ts.NormalForm

/-!
# Reading types back

A reader for the text of types. It takes the unread characters and answers with what it read and
the characters after it. A type is read as the list of its alternatives, so that a bar is never
looked for inside of one. The fuel bounds how deep the readers call each other.
-/

namespace IdlTypings.Ts

def readName (text : List Char) : Option (String × List Char) :=
  if (text.takeWhile isWordChar).isEmpty then none
  else some (String.ofList (text.takeWhile isWordChar), text.dropWhile isWordChar)

/-- The name that a `typeof` asks about. The word `typeof` alone is the name of a type. -/
def readQuery (name : String) : List Char → Option (String × List Char)
  | ' ' :: rest => if name = "typeof" then readName rest else none
  | _ => none

def readMark (mark : Char) : List Char → Option (List Char)
  | [] => none
  | c :: rest => if c = mark then some rest else none

def readSpread : List Char → Bool × List Char
  | '.' :: '.' :: '.' :: rest => (true, rest)
  | text => (false, text)

def readOptional : List Char → Bool × List Char
  | '?' :: rest => (true, rest)
  | text => (false, text)

abbrev Reader (α : Type) := Nat → List Char → Option (α × List Char)

mutual

def readAlternatives : Reader (List TypeExpr)
  | 0, _ => none
  | fuel + 1, text => do
      let (alternative, rest) ← readAlternative fuel text
      match rest with
      | ' ' :: '|' :: ' ' :: more =>
          let (alternatives, rest) ← readAlternatives fuel more
          return (alternative :: alternatives, rest)
      | rest => return ([alternative], rest)
termination_by structural fuel => fuel

def readAlternative : Reader TypeExpr
  | 0, _ => none
  | _ + 1, [] => none
  | fuel + 1, mark :: rest =>
      if mark = '"' then
        match Json.readString 0 rest with
        | .ok (value, rest) => some (.stringLiteral (String.ofList value), rest)
        | .error _ => none
      else if mark = '[' then
        match rest with
        | ']' :: rest => some (.tuple [], rest)
        | rest => do
            let (elements, rest) ← readTypes fuel rest
            let rest ← readMark ']' rest
            return (.tuple elements, rest)
      else if mark = '(' then
        match rest with
        | '(' :: rest => do
            let (function, rest) ← readFunction fuel rest
            let rest ← readMark ')' rest
            return (function, rest)
        | rest => readFunction fuel rest
      else readNamed fuel (mark :: rest)
termination_by structural fuel => fuel

def readNamed : Reader TypeExpr
  | 0, _ => none
  | fuel + 1, text => do
      let (name, rest) ← readName text
      match readQuery name rest with
      | some (query, rest) => return (.typeQuery query, rest)
      | none =>
          match rest with
          | '<' :: rest =>
              let (args, rest) ← readTypes fuel rest
              let rest ← readMark '>' rest
              return (.reference name args, rest)
          | rest => return (.name name, rest)
termination_by structural fuel => fuel

/-- A function whose opening parenthesis was read. -/
def readFunction : Reader TypeExpr
  | 0, _ => none
  | fuel + 1, text => do
      let (params, rest) ← readParams fuel text
      match rest with
      | ')' :: ' ' :: '=' :: '>' :: ' ' :: rest =>
          let (returns, rest) ← readAlternatives fuel rest
          return (.function params (.ofAlternatives returns), rest)
      | _ => none
termination_by structural fuel => fuel

def readTypes : Reader (List TypeExpr)
  | 0, _ => none
  | fuel + 1, text => do
      let (type, rest) ← readAlternatives fuel text
      match rest with
      | ',' :: ' ' :: more =>
          let (types, rest) ← readTypes fuel more
          return (.ofAlternatives type :: types, rest)
      | rest => return ([.ofAlternatives type], rest)
termination_by structural fuel => fuel

/-- The parameters before a closing parenthesis. -/
def readParams : Reader (List Param)
  | 0, _ => none
  | _ + 1, ')' :: rest => some ([], ')' :: rest)
  | fuel + 1, text => do
      let (param, rest) ← readParam fuel text
      match rest with
      | ',' :: ' ' :: more =>
          let (params, rest) ← readParams fuel more
          return (param :: params, rest)
      | rest => return ([param], rest)
termination_by structural fuel => fuel

def readParam : Reader Param
  | 0, _ => none
  | fuel + 1, text => do
      let (spread, text) := readSpread text
      let (name, rest) ← readName text
      let (optional, rest) := readOptional rest
      match rest with
      | ':' :: ' ' :: rest =>
          let (type, rest) ← readAlternatives fuel rest
          return (⟨name, .ofAlternatives type, optional, spread⟩, rest)
      | _ => none
termination_by structural fuel => fuel

end

/-! ### Enough fuel -/

section Reads

variable {α β γ : Type} {reader : Reader α} {text : List Char} {result : α × List Char}

/-- With enough fuel, this is what the reader makes of the text. -/
def Reads (reader : Reader α) (text : List Char) (result : α × List Char) : Prop :=
  ∃ enough, ∀ fuel, enough ≤ fuel → reader fuel text = some result

theorem Reads.unique {other : α × List Char} (h : Reads reader text result)
    (hother : Reads reader text other) : result = other := by
  obtain ⟨enough, h⟩ := h
  obtain ⟨enough', hother⟩ := hother
  have hsome := h (max enough enough') (Nat.le_max_left ..)
  rw [hother (max enough enough') (Nat.le_max_right ..)] at hsome
  exact (Option.some.inj hsome).symm

/-- A reader that calls no other. -/
theorem Reads.of_forall (h : ∀ fuel, reader (fuel + 1) text = some result) :
    Reads reader text result := by
  refine ⟨1, fun fuel hfuel => ?_⟩
  obtain ⟨fuel, rfl⟩ := Nat.exists_eq_add_of_le' hfuel
  exact h fuel

/-- A reader that calls two others. -/
theorem Reads.of_calls {first : Reader β} {firstText : List Char} {firstResult : β × List Char}
    {second : Reader γ} {secondText : List Char} {secondResult : γ × List Char}
    (hfirst : Reads first firstText firstResult) (hsecond : Reads second secondText secondResult)
    (h : ∀ fuel, first fuel firstText = some firstResult →
      second fuel secondText = some secondResult → reader (fuel + 1) text = some result) :
    Reads reader text result := by
  obtain ⟨enough, hfirst⟩ := hfirst
  obtain ⟨enough', hsecond⟩ := hsecond
  refine ⟨max enough enough' + 1, fun fuel hfuel => ?_⟩
  obtain ⟨fuel, rfl⟩ := Nat.exists_eq_add_of_le' (Nat.le_of_add_left_le hfuel)
  exact h fuel (hfirst fuel (by omega)) (hsecond fuel (by omega))

theorem Reads.of_call {call : Reader β} {callText : List Char} {callResult : β × List Char}
    (hcall : Reads call callText callResult)
    (h : ∀ fuel, call fuel callText = some callResult → reader (fuel + 1) text = some result) :
    Reads reader text result :=
  hcall.of_calls hcall fun fuel hread _ => h fuel hread

/-- What is never read, whatever the fuel, is not read. -/
theorem Reads.ne_of_forall_none {other : List Char} (hnone : ∀ fuel, reader fuel other = none)
    (h : Reads reader text result) : text ≠ other := by
  obtain ⟨enough, h⟩ := h
  rintro rfl
  have hsome := h enough (Nat.le_refl enough)
  rw [hnone] at hsome
  exact Option.some_ne_none _ hsome.symm

end Reads

/-! ### Names -/

/-- No word goes on here. -/
def EndsWord (rest : List Char) : Prop :=
  ∀ c ∈ rest.head?, isWordChar c = false

theorem EndsWord.cons {c : Char} (h : isWordChar c = false) (rest : List Char) :
    EndsWord (c :: rest) := by
  intro d hd
  rw [List.head?_cons, Option.mem_some_iff] at hd
  rwa [← hd]

theorem IsWord.exists_cons {name : String} (h : IsWord name) :
    ∃ c chars, name.toList = c :: chars ∧ isWordChar c = true := by
  obtain ⟨hne, hword⟩ := h
  cases hchars : name.toList with
  | nil => exact absurd (String.toList_eq_nil_iff.mp hchars) hne
  | cons c chars =>
      rw [hchars, List.all_cons, Bool.and_eq_true] at hword
      exact ⟨c, chars, rfl, hword.1⟩

theorem ne_of_isWordChar {c mark : Char} (h : isWordChar c = true)
    (hmark : isWordChar mark = false) : c ≠ mark := by
  rintro rfl
  rw [hmark] at h
  exact absurd h (by decide)

theorem readName_append {name : String} (hname : IsWord name) {rest : List Char}
    (hrest : EndsWord rest) : readName (name.toList ++ rest) = some (name, rest) := by
  have hnil : name.toList ≠ [] := fun h => hname.1 (String.toList_eq_nil_iff.mp h)
  have hword : ∀ c ∈ name.toList, isWordChar c = true := List.all_eq_true.mp hname.2
  have htake : rest.takeWhile isWordChar = [] := by
    cases rest with
    | nil => rfl
    | cons c rest => exact List.takeWhile_cons_of_neg (by simp [hrest c rfl])
  have hdrop : rest.dropWhile isWordChar = rest := by
    cases rest with
    | nil => rfl
    | cons c rest => exact List.dropWhile_cons_of_neg (by simp [hrest c rfl])
  rw [readName, List.takeWhile_append_of_pos hword, List.dropWhile_append_of_pos hword, htake,
    hdrop, List.append_nil, String.ofList_toList, if_neg (by simpa using hnil)]

theorem readName_eq_none {c : Char} (h : isWordChar c = false) (rest : List Char) :
    readName (c :: rest) = none := by
  simp [readName, h]

/-- A name is over here, and it is neither asked about nor given arguments. -/
structure EndsName (rest : List Char) : Prop where
  word : EndsWord rest
  query : ∀ name, readQuery name rest = none
  args : ∀ more, rest ≠ '<' :: more

theorem reads_named_name {name : String} (hname : IsWord name) {rest : List Char}
    (hrest : EndsName rest) : Reads readNamed (name.toList ++ rest) (.name name, rest) := by
  refine .of_forall fun fuel => ?_
  rw [readNamed, readName_append hname hrest.word, Option.bind_eq_bind, Option.bind_some]
  simp only [hrest.query]
  split
  · exact absurd rfl (hrest.args _)
  · rfl

theorem reads_named_args {name : String} (hname : IsWord name) {text rest : List Char}
    {args : List TypeExpr} (h : Reads readTypes text (args, '>' :: rest)) :
    Reads readNamed (name.toList ++ '<' :: text) (.reference name args, rest) := by
  refine h.of_call fun fuel h => ?_
  rw [readNamed, readName_append hname (.cons (by decide) text)]
  simp [readQuery, h, readMark]

theorem reads_named_query {name : String} (hname : IsWord name) {rest : List Char}
    (hrest : EndsWord rest) :
    Reads readNamed ("typeof".toList ++ ' ' :: (name.toList ++ rest)) (.typeQuery name, rest) := by
  have htypeof : IsWord "typeof" := by decide
  refine .of_forall fun fuel => ?_
  rw [readNamed, readName_append htypeof (.cons (by decide) _)]
  simp [readQuery, readName_append hname hrest]

/-! ### Alternatives -/

theorem readAlternative_succ_of_named (fuel : Nat) {c : Char} (hquote : c ≠ '"')
    (hbracket : c ≠ '[') (hparen : c ≠ '(') (rest : List Char) :
    readAlternative (fuel + 1) (c :: rest) = readNamed fuel (c :: rest) := by
  unfold readAlternative
  simp only [hquote, hbracket, hparen, if_false]

theorem reads_alternative_word {name : String} (hname : IsWord name) {rest : List Char}
    {result : TypeExpr × List Char} (h : Reads readNamed (name.toList ++ rest) result) :
    Reads readAlternative (name.toList ++ rest) result := by
  obtain ⟨c, chars, hchars, hc⟩ := hname.exists_cons
  rw [hchars, List.cons_append] at h ⊢
  refine h.of_call fun fuel h => ?_
  rw [readAlternative_succ_of_named fuel (ne_of_isWordChar hc (by decide))
    (ne_of_isWordChar hc (by decide)) (ne_of_isWordChar hc (by decide)), h]

theorem reads_alternative_quote (value : String) (rest : List Char) :
    Reads readAlternative ((Json.quote value).toList ++ rest) (.stringLiteral value, rest) := by
  have htext : (Json.quote value).toList ++ rest =
      '"' :: (value.toList.flatMap Json.escapeChar ++ '"' :: rest) := by
    simp [Json.quote, Json.quoteChars]
  rw [htext]
  refine .of_forall fun fuel => ?_
  unfold readAlternative
  simp only [Json.readString_quoteChars, String.ofList_toList, if_true]

/-- No alternative begins with a mark that ends one. -/
theorem readAlternatives_eq_none {c : Char} (h : isWordChar c = false)
    (hmark : c ∉ ['"', '[', '(']) (rest : List Char) :
    ∀ fuel, readAlternatives fuel (c :: rest) = none
  | 0 => rfl
  | 1 => rfl
  | 2 => by
      simp only [List.mem_cons, List.not_mem_nil, or_false, not_or] at hmark
      rw [readAlternatives, readAlternative_succ_of_named 0 hmark.1 hmark.2.1 hmark.2.2]
      rfl
  | fuel + 3 => by
      simp only [List.mem_cons, List.not_mem_nil, or_false, not_or] at hmark
      rw [readAlternatives, readAlternative_succ_of_named (fuel + 1) hmark.1 hmark.2.1 hmark.2.2,
        readNamed, readName_eq_none h]
      rfl

theorem readTypes_bracket (rest : List Char) : ∀ fuel, readTypes fuel (']' :: rest) = none
  | 0 => rfl
  | fuel + 1 => by
      rw [readTypes, readAlternatives_eq_none (by decide) (by decide)]
      rfl

theorem reads_alternative_brackets (rest : List Char) :
    Reads readAlternative ('[' :: ']' :: rest) (.tuple [], rest) := by
  refine .of_forall fun fuel => ?_
  simp [readAlternative]

theorem reads_alternative_tuple {text rest : List Char} {elements : List TypeExpr}
    (h : Reads readTypes text (elements, ']' :: rest)) :
    Reads readAlternative ('[' :: text) (.tuple elements, rest) := by
  -- the reader takes a closing bracket here for the end of an empty tuple
  have hbracket : ∀ more, text = ']' :: more → False := fun more =>
    h.ne_of_forall_none (readTypes_bracket more)
  refine h.of_call fun fuel h => ?_
  unfold readAlternative
  simp only [show ¬ '[' = '"' by decide, if_false, if_true, h]
  rfl

theorem readSpread_of_ne {c : Char} (h : c ≠ '.') (rest : List Char) :
    readSpread (c :: rest) = (false, c :: rest) := by
  rw [readSpread]
  intro more heq
  exact h (List.cons.inj heq).1

theorem readParam_eq_none {c : Char} (h : isWordChar c = false) (hdot : c ≠ '.')
    (rest : List Char) : ∀ fuel, readParam fuel (c :: rest) = none
  | 0 => rfl
  | fuel + 1 => by
      rw [readParam]
      simp only [readSpread_of_ne hdot, readName_eq_none h]
      rfl

theorem readFunction_paren (rest : List Char) : ∀ fuel, readFunction fuel ('(' :: rest) = none
  | 0 => rfl
  | 1 => rfl
  | fuel + 2 => by
      rw [readFunction, readParams, readParam_eq_none (by decide) (by decide)]
      · rfl
      · simp

theorem reads_alternative_parentheses {text rest : List Char} {function : TypeExpr}
    (h : Reads readFunction text (function, ')' :: rest)) :
    Reads readAlternative ('(' :: '(' :: text) (function, rest) := by
  refine h.of_call fun fuel h => ?_
  simp [readAlternative, h, readMark]

theorem reads_alternative_function {text rest : List Char} {function : TypeExpr}
    (h : Reads readFunction text (function, rest)) :
    Reads readAlternative ('(' :: text) (function, rest) := by
  -- the reader takes a second parenthesis for the start of a function in parentheses
  have hparen : ∀ more, text = '(' :: more → False := fun more =>
    h.ne_of_forall_none (readFunction_paren more)
  refine h.of_call fun fuel h => ?_
  unfold readAlternative
  simp only [show ¬ '(' = '"' by decide, show ¬ '(' = '[' by decide, if_false, if_true, h]

theorem reads_function {text body rest : List Char} {params : List Param}
    {returns : List TypeExpr}
    (hparams : Reads readParams text (params, ')' :: ' ' :: '=' :: '>' :: ' ' :: body))
    (hreturns : Reads readAlternatives body (returns, rest)) :
    Reads readFunction text (.function params (.ofAlternatives returns), rest) := by
  refine hparams.of_calls hreturns fun fuel hparams hreturns => ?_
  simp [readFunction, hparams, hreturns]

/-! ### Lists -/

theorem reads_types_singleton {text : List Char} {type : List TypeExpr} {close : Char}
    (hclose : close ≠ ',') {rest : List Char}
    (h : Reads readAlternatives text (type, close :: rest)) :
    Reads readTypes text ([.ofAlternatives type], close :: rest) := by
  refine h.of_call fun fuel h => ?_
  simp only [readTypes, h, Option.bind_eq_bind, Option.bind_some]
  split
  · next heq => exact absurd (List.cons.inj heq).1 hclose
  · rfl

theorem reads_types_cons {text more rest : List Char} {type : List TypeExpr}
    {types : List TypeExpr} (h : Reads readAlternatives text (type, ',' :: ' ' :: more))
    (hmore : Reads readTypes more (types, rest)) :
    Reads readTypes text (.ofAlternatives type :: types, rest) := by
  refine h.of_calls hmore fun fuel h hmore => ?_
  simp [readTypes, h, hmore]

theorem reads_params_nil (rest : List Char) :
    Reads readParams (')' :: rest) ([], ')' :: rest) :=
  .of_forall fun _ => rfl

theorem Reads.param_ne_paren {text : List Char} {result : Param × List Char}
    (h : Reads readParam text result) (rest : List Char) : text = ')' :: rest → False :=
  h.ne_of_forall_none (readParam_eq_none (by decide) (by decide) rest)

theorem reads_params_singleton {text rest : List Char} {param : Param}
    (h : Reads readParam text (param, ')' :: rest)) :
    Reads readParams text ([param], ')' :: rest) := by
  have hparen := h.param_ne_paren
  refine h.of_call fun fuel h => ?_
  rw [readParams, h]
  · rfl
  · exact hparen

theorem reads_params_cons {text more rest : List Char} {param : Param} {params : List Param}
    (h : Reads readParam text (param, ',' :: ' ' :: more))
    (hmore : Reads readParams more (params, rest)) :
    Reads readParams text (param :: params, rest) := by
  have hparen := h.param_ne_paren
  refine h.of_calls hmore fun fuel h hmore => ?_
  rw [readParams, h]
  · simp [hmore]
  · exact hparen

/-! ### Parameters -/

theorem readSpread_append {name : String} (hname : IsWord name) (spread : Bool)
    (rest : List Char) :
    readSpread ((if spread then "..." else "").toList ++ (name.toList ++ rest)) =
      (spread, name.toList ++ rest) := by
  cases spread with
  | true => rfl
  | false =>
      obtain ⟨c, chars, hchars, hc⟩ := hname.exists_cons
      rw [hchars]
      exact readSpread_of_ne (ne_of_isWordChar hc (by decide)) (chars ++ rest)

theorem reads_param {name : String} (hname : IsWord name) (spread optional : Bool)
    {body rest : List Char} {type : List TypeExpr}
    (h : Reads readAlternatives body (type, rest)) :
    Reads readParam
      ((if spread then "..." else "").toList ++ (name.toList ++
        ((if optional then "?" else "").toList ++ ':' :: ' ' :: body)))
      (⟨name, .ofAlternatives type, optional, spread⟩, rest) := by
  have hends : EndsWord ((if optional then "?" else "").toList ++ ':' :: ' ' :: body) := by
    cases optional with
    | true => exact .cons (by decide) _
    | false => exact .cons (by decide) _
  have hoptional : readOptional ((if optional then "?" else "").toList ++ ':' :: ' ' :: body) =
      (optional, ':' :: ' ' :: body) := by
    cases optional with
    | true => rfl
    | false => rfl
  refine h.of_call fun fuel h => ?_
  simp only [readParam, readSpread_append hname, readName_append hname hends, hoptional, h,
    Option.bind_eq_bind, Option.bind_some]
  rfl

end IdlTypings.Ts
