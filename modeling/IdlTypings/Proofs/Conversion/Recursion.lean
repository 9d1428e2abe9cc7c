import IdlTypings.Proofs.Conversion.Dumps
import IdlTypings.Proofs.Idl.RoundTrip
import IdlTypings.Proofs.Idl.TypeDepth
import IdlTypings.Proofs.Ts.TypeDepth
import IdlTypings.Ts.TypeText
import Mathlib.Logic.Function.Iterate

/-!
# How deep the recursion goes

Types are read, converted and written by recursion. For each of the three functions we say what one
call does, with a parameter in the place of the calls that it makes itself; the function is unrolled
by iterating that. The calls nested in each other are no more than the nodes on a path of the type,
and since the depth of a text is bounded, so are they, whatever the text is.
-/

namespace IdlTypings

/-- One call of `f` does what `body` says, and at `x` at most `n` calls are nested in each other:
the answer is the same whatever stands for the calls that would be nested deeper. -/
structure RecursesWithin {α β : Type} (n : Nat) (body : (α → β) → α → β) (f : α → β) (x : α) :
    Prop where
  unfolds : body f = f
  answers : ∀ deeper : α → β, body^[n] deeper x = f x

/-- A function that calls itself at smaller arguments only. -/
theorem recursesWithin_of_rank {α β : Type} {body : (α → β) → α → β} {f : α → β} (rank : α → Nat)
    (hpos : ∀ x, 0 < rank x) (hf : body f = f)
    (hbody : ∀ x g, (∀ y, rank y < rank x → g y = f y) → body g x = body f x) {n : Nat} {x : α}
    (hn : rank x ≤ n) : RecursesWithin n body f x := by
  refine ⟨hf, fun deeper => ?_⟩
  -- what stands for the calls deeper down is reached only below a rank that no argument has
  induction n generalizing x with
  | zero => exact absurd hn (Nat.not_le.mpr (hpos x))
  | succ n ih =>
      rw [Function.iterate_succ_apply', ← congrFun hf x]
      apply hbody
      intro y hy
      exact ih (Nat.le_of_lt_succ (Nat.lt_of_lt_of_le hy hn))

theorem Noted.each_congr {α β : Type} {f g : α → Noted β} {items : List α}
    (h : ∀ item ∈ items, f item = g item) : each f items = each g items := by
  induction items with
  | nil => rfl
  | cons item rest ih =>
      obtain ⟨hitem, hrest⟩ := List.forall_mem_cons.mp h
      rw [each, each, hitem, ih hrest]

end IdlTypings

/-! ### Reading types -/

namespace IdlTypings.Idl

open Json (Value)

def Descriptor.ofValue? : Value → Option Descriptor
  | .object fields => (Descriptor.ofFields fields).toOption
  | .array [head, nullable, isUnion, inner] =>
      (Descriptor.ofItems head nullable isUnion inner).toOption
  | _ => none

/-- The values of the types in a described type. -/
def Descriptor.parts (d : Descriptor) : List Value :=
  match d.inner with
  | .array items => items
  | _ => []

/-- One call of `TypeExpr.ofValue`. -/
def TypeExpr.ofValueBody (read : Value → TypeExpr) (raw : Value) : TypeExpr :=
  match Descriptor.ofValue? raw with
  | some d => (d.type? (d.parts.map read)).getD (.unsupported raw)
  | none => .unsupported raw

theorem typesOfItems_eq_map (items : List Value) :
    typesOfItems items = items.map TypeExpr.ofValue := by
  induction items with
  | nil => rfl
  | cons item rest ih => rw [typesOfItems, ih, List.map_cons]

theorem typesIn_inner (d : Descriptor) : typesIn d.inner = d.parts.map TypeExpr.ofValue := by
  unfold Descriptor.parts
  cases d.inner with
  | array items => exact typesOfItems_eq_map items
  | _ => rfl

theorem typesInFields_of_ofFields {fields : List (String × Value)} {d : Descriptor}
    (h : Descriptor.ofFields fields = .ok d) :
    typesInFields fields = d.parts.map TypeExpr.ofValue := by
  simp only [Descriptor.ofFields, bind_eq_ok_iff, pure_eq_ok_iff, require_eq_ok_iff] at h
  obtain ⟨_, -, _, hinner, _, -, _, -, inner, rfl, rfl⟩ := h
  obtain ⟨-, hnone⟩ | ⟨value, _, hlookup, hvalue, hfound⟩ := exists_of_field?_eq_ok hinner
  · cases hnone
  · cases hfound
    cases hvalue
    rw [typesInFields_eq, hlookup, ← typesIn_inner]
    rfl

theorem typesIn_of_ofItems {head nullable isUnion inner : Value} {d : Descriptor}
    (h : Descriptor.ofItems head nullable isUnion inner = .ok d) :
    typesIn inner = d.parts.map TypeExpr.ofValue := by
  simp only [Descriptor.ofItems, bind_eq_ok_iff, pure_eq_ok_iff] at h
  obtain ⟨_, -, _, -, _, -, rfl⟩ := h
  exact typesIn_inner ⟨_, _, _, inner⟩

theorem TypeExpr.ofValueBody_ofValue :
    TypeExpr.ofValueBody TypeExpr.ofValue = TypeExpr.ofValue := by
  funext raw
  cases raw with
  | object fields =>
      rw [TypeExpr.ofValue, TypeExpr.ofValueBody, Descriptor.ofValue?]
      cases hd : Descriptor.ofFields fields with
      | error e => rfl
      | ok d =>
          rw [typesInFields_of_ofFields hd]
          rfl
  | array items =>
      -- four items are a descriptor, fewer or more are none
      rcases items with _ | ⟨head, _ | ⟨nullable, _ | ⟨isUnion, _ | ⟨inner, _ | ⟨more, rest⟩⟩⟩⟩⟩
      case cons.cons.cons.cons.nil =>
          rw [TypeExpr.ofValue, TypeExpr.ofValueBody, Descriptor.ofValue?]
          cases hd : Descriptor.ofItems head nullable isUnion inner with
          | error e => rfl
          | ok d =>
              rw [typesIn_of_ofItems hd]
              rfl
      all_goals rfl
  | _ => rfl

/-- Only the parts of a descriptor are read, and if they count they are parts of the type. -/
theorem Descriptor.type?_congr (d : Descriptor) (raw : Value) {read other : Value → TypeExpr}
    (h : ∀ part, (read part).depth < ((d.type? (d.parts.map read)).getD (.unsupported raw)).depth →
      other part = read part) :
    d.type? (d.parts.map other) = d.type? (d.parts.map read) := by
  have hparts (hdepth : typesDepth (d.parts.map read) <
      ((d.type? (d.parts.map read)).getD (.unsupported raw)).depth) :
      d.parts.map other = d.parts.map read := by
    refine List.map_congr_left fun part hpart => h part ?_
    exact Nat.lt_of_le_of_lt (depth_le_typesDepth (List.mem_map_of_mem hpart)) hdepth
  obtain ⟨head, nullable, isUnion, inner⟩ := d
  match inner, isUnion, hhead : head.isEmpty with
  | .array items, true, _ => rw [hparts (Nat.lt_succ_self _)]
  | .array items, false, false =>
      simp only [Descriptor.type?, hhead] at hparts ⊢
      rw [hparts (Nat.lt_succ_self _)]
  | .array items, false, true => simp only [Descriptor.type?, hhead]
  | .null, _, _ | .bool _, _, _ | .number _, _, _ | .string _, _, _ | .object _, _, _ => rfl

theorem recursesWithin_ofValue {value : Value} {n : Nat} (h : (TypeExpr.ofValue value).depth ≤ n) :
    RecursesWithin n TypeExpr.ofValueBody TypeExpr.ofValue value := by
  refine recursesWithin_of_rank (fun value => (TypeExpr.ofValue value).depth)
    (fun value => TypeExpr.depth_pos _) TypeExpr.ofValueBody_ofValue (fun raw read hread => ?_) h
  have htype : TypeExpr.ofValue raw = TypeExpr.ofValueBody TypeExpr.ofValue raw := by
    rw [TypeExpr.ofValueBody_ofValue]
  simp only [htype, TypeExpr.ofValueBody] at hread ⊢
  cases hd : Descriptor.ofValue? raw with
  | none => rfl
  | some d =>
      rw [hd] at hread
      exact congrArg (fun type => type.getD (.unsupported raw)) (d.type?_congr raw hread)

/-! ### Converting types -/

open Conversion

/-- One call of `TypeExpr.toTs`. -/
def TypeExpr.toTsBody (owner : Option String) (convert : TypeExpr → Noted Ts.TypeExpr) :
    TypeExpr → Noted Ts.TypeExpr
  | .named name nullable =>
      pure (orNullIf nullable (resolve name) ((NameClass.of (resolve name)).type (resolve name)))
  | .generic head args nullable => do
      let args ← Noted.each convert args
      return orNullIf nullable (resolve head) (.reference (resolve head) args)
  | .union members _ => do
      let members ← Noted.each convert members
      return .union members
  | .unsupported raw => Noted.skip .unknown (.unsupported .type owner raw)

section Converting

variable (owner : Option String)

theorem listToTs_eq_each (types : List TypeExpr) :
    TypeExpr.listToTs owner types = Noted.each (TypeExpr.toTs owner) types := by
  induction types with
  | nil => rfl
  | cons type rest ih => rw [TypeExpr.listToTs, Noted.each, ih]

theorem TypeExpr.toTsBody_toTs :
    TypeExpr.toTsBody owner (TypeExpr.toTs owner) = TypeExpr.toTs owner := by
  funext type
  cases type with
  | named name nullable => rfl
  | generic head args nullable => rw [TypeExpr.toTs, TypeExpr.toTsBody, listToTs_eq_each]
  | union members nullable => rw [TypeExpr.toTs, TypeExpr.toTsBody, listToTs_eq_each]
  | unsupported raw => rfl

theorem recursesWithin_toTs {type : TypeExpr} {n : Nat} (h : type.depth ≤ n) :
    RecursesWithin n (TypeExpr.toTsBody owner) (TypeExpr.toTs owner) type := by
  refine recursesWithin_of_rank TypeExpr.depth TypeExpr.depth_pos (TypeExpr.toTsBody_toTs owner)
    (fun type convert hconvert => ?_) h
  have heach : ∀ {types : List TypeExpr}, typesDepth types < type.depth →
      Noted.each convert types = Noted.each (TypeExpr.toTs owner) types := by
    intro types hdepth
    refine Noted.each_congr fun part hpart => hconvert part ?_
    exact Nat.lt_of_le_of_lt (depth_le_typesDepth hpart) hdepth
  cases type with
  | named name nullable => rfl
  | generic head args nullable =>
      rw [TypeExpr.toTsBody, TypeExpr.toTsBody, heach (Nat.lt_succ_self _)]
  | union members nullable =>
      rw [TypeExpr.toTsBody, TypeExpr.toTsBody, heach (Nat.lt_succ_self _)]
  | unsupported raw => rfl

theorem depth_orNullIf_le (nullable : Bool) (resolved : String) (type : Ts.TypeExpr) :
    (orNullIf nullable resolved type).depth ≤ type.depth + 1 := by
  unfold orNullIf
  split
  · exact Nat.le_of_eq type.depth_orNull
  · exact Nat.le_succ _

mutual

/-- Each node becomes at most two, itself and the union with `null` around it. -/
theorem TypeExpr.depth_toTs_le : ∀ type : TypeExpr,
    (type.toTs owner).result.depth ≤ 2 * type.depth
  | .named name nullable => by
      have hname : ∀ nameClass : NameClass, (nameClass.type (resolve name)).depth = 1 := by
        intro nameClass
        cases nameClass <;> rfl
      have hnode := depth_orNullIf_le nullable (resolve name)
        ((NameClass.of (resolve name)).type (resolve name))
      rw [hname] at hnode
      exact hnode
  | .generic head args nullable => by
      have hargs := typesDepth_listToTs_le args
      have hnode := depth_orNullIf_le nullable (resolve head)
        (.reference (resolve head) (TypeExpr.listToTs owner args).result)
      rw [Ts.TypeExpr.depth] at hnode
      rw [TypeExpr.toTs, TypeExpr.depth, Noted.result_bind, Noted.result_pure]
      omega
  | .union members nullable => by
      have hmembers := typesDepth_listToTs_le members
      rw [TypeExpr.toTs, TypeExpr.depth, Noted.result_bind, Noted.result_pure, Ts.TypeExpr.depth]
      omega
  | .unsupported raw => Nat.le_succ 1
termination_by structural type => type

theorem typesDepth_listToTs_le : ∀ types : List TypeExpr,
    Ts.typesDepth (TypeExpr.listToTs owner types).result ≤ 2 * typesDepth types
  | [] => Nat.le_refl 0
  | type :: rest => by
      have htype := TypeExpr.depth_toTs_le type
      have hrest := typesDepth_listToTs_le rest
      simp only [TypeExpr.listToTs, Noted.result_bind, Noted.result_pure, Ts.typesDepth, typesDepth]
      omega
termination_by structural types => types

end

end Converting

end IdlTypings.Idl

/-! ### Writing types -/

namespace IdlTypings.Ts

/-- A member of a union. -/
def TypeExpr.memberTextBody (write : TypeExpr → String) (member : TypeExpr) : String :=
  if member.isFunction then "(" ++ write member ++ ")" else write member

def Param.textBody (write : TypeExpr → String) (p : Param) : String :=
  (if p.rest then "..." else "") ++ p.name ++ (if p.optional then "?" else "") ++ ": " ++
    write p.type

/-- One call of `TypeExpr.text`. -/
def TypeExpr.textBody (write : TypeExpr → String) : TypeExpr → String
  | .keyword word => word.text
  | .reference name args =>
      if args.isEmpty then name else name ++ "<" ++ commaSeparated (args.map write) ++ ">"
  | .union members =>
      if members.isEmpty then "never"
      else " | ".intercalate (members.map (TypeExpr.memberTextBody write))
  | .stringLiteral value => Json.quote value
  | .tuple elements => "[" ++ commaSeparated (elements.map write) ++ "]"
  | .function params returns =>
      "(" ++ commaSeparated (params.map (Param.textBody write)) ++ ") => " ++ write returns
  | .typeQuery name => "typeof " ++ name

theorem texts_eq_map (types : List TypeExpr) :
    TypeExpr.texts types = types.map TypeExpr.text := by
  induction types with
  | nil => rfl
  | cons type rest ih => rw [TypeExpr.texts, ih, List.map_cons]

theorem memberTexts_eq_map (members : List TypeExpr) :
    TypeExpr.memberTexts members = members.map (TypeExpr.memberTextBody TypeExpr.text) := by
  induction members with
  | nil => rfl
  | cons member rest ih =>
      rw [TypeExpr.memberTexts, ih, List.map_cons]
      rfl

theorem paramTexts_eq_map (params : List Param) :
    Param.texts params = params.map (Param.textBody TypeExpr.text) := by
  induction params with
  | nil => rfl
  | cons param rest ih =>
      rw [Param.texts, ih, List.map_cons]
      cases param
      rfl

theorem TypeExpr.textBody_text : TypeExpr.textBody TypeExpr.text = TypeExpr.text := by
  funext type
  cases type with
  | keyword | stringLiteral | typeQuery => rfl
  | reference name args => rw [TypeExpr.text, TypeExpr.textBody, texts_eq_map]
  | union members => rw [TypeExpr.text, TypeExpr.textBody, memberTexts_eq_map]
  | tuple elements => rw [TypeExpr.text, TypeExpr.textBody, texts_eq_map]
  | function params returns => rw [TypeExpr.text, TypeExpr.textBody, paramTexts_eq_map]

theorem recursesWithin_text {type : TypeExpr} {n : Nat} (h : type.depth ≤ n) :
    RecursesWithin n TypeExpr.textBody TypeExpr.text type := by
  refine recursesWithin_of_rank TypeExpr.depth TypeExpr.depth_pos TypeExpr.textBody_text
    (fun type write hwrite => ?_) h
  have hparts : ∀ types : List TypeExpr, typesDepth types < type.depth →
      ∀ part ∈ types, write part = part.text := by
    intro types hdepth part hpart
    exact hwrite part (Nat.lt_of_le_of_lt (depth_le_typesDepth hpart) hdepth)
  cases type with
  | keyword | stringLiteral | typeQuery => rfl
  | reference name args =>
      have hargs := hparts args (Nat.lt_succ_self _)
      rw [TypeExpr.textBody, TypeExpr.textBody, List.map_congr_left hargs]
  | union members =>
      have hmembers := hparts members (Nat.lt_succ_self _)
      have htexts : members.map (TypeExpr.memberTextBody write) =
          members.map (TypeExpr.memberTextBody TypeExpr.text) := by
        refine List.map_congr_left fun member hmember => ?_
        rw [TypeExpr.memberTextBody, TypeExpr.memberTextBody, hmembers member hmember]
      rw [TypeExpr.textBody, TypeExpr.textBody, htexts]
  | tuple elements =>
      have helements := hparts elements (Nat.lt_succ_self _)
      rw [TypeExpr.textBody, TypeExpr.textBody, List.map_congr_left helements]
  | function params returns =>
      have hreturns : write returns = returns.text :=
        hwrite returns (Nat.lt_succ_of_le (Nat.le_max_right _ _))
      have htexts : params.map (Param.textBody write) =
          params.map (Param.textBody TypeExpr.text) := by
        refine List.map_congr_left fun param hparam => ?_
        have hdepth : param.type.depth ≤ max (paramsDepth params) returns.depth :=
          Nat.le_trans (depth_le_paramsDepth hparam) (Nat.le_max_left _ _)
        rw [Param.textBody, Param.textBody, hwrite param.type (Nat.lt_succ_of_le hdepth)]
      rw [TypeExpr.textBody, TypeExpr.textBody, hreturns, htexts]

end IdlTypings.Ts

/-! ### Types of a text -/

namespace IdlTypings.Conversion

open Json (Value)
open Idl (LoadedFrom)

theorem depth_ofValue_le_of_holds {text : String} {document value : Value} {n : Nat}
    (hparse : Json.parse Json.depthLimit text = .ok document) (hn : 2 ≤ n)
    (hvalue : document.Holds n value) : (Idl.TypeExpr.ofValue value).depth ≤ 63 :=
  (LoadedFrom.described hn hvalue).depth_le 125 (Json.depth_le_of_parse hparse)

/-- **Recursion is bounded.** At any value in a text that has the list of nodes and a node around
it, reading a type takes at most 63 nested calls, whether the text is accepted or not. If it is,
every type of the model comes from such a value or is implied, has at most 63 nodes on a path and
takes at most 63 nested calls to be converted, and to write what it becomes takes at most 126. -/
theorem recursesWithin_of_text (text : String) :
    (∀ document, Json.parse Json.depthLimit text = .ok document →
      ∀ (n : Nat) (value : Value), 2 ≤ n → document.Holds n value →
        RecursesWithin 63 Idl.TypeExpr.ofValueBody Idl.TypeExpr.ofValue value) ∧
    ∀ roots, Idl.loadText text = .ok roots →
      ∃ document, Json.parse Json.depthLimit text = .ok document ∧
        ∀ root ∈ roots, ∀ type ∈ root.types,
          LoadedFrom document 2 type ∧ type.depth ≤ 63 ∧
            ∀ owner : Option String,
              RecursesWithin 63 (Idl.TypeExpr.toTsBody owner) (Idl.TypeExpr.toTs owner) type ∧
                RecursesWithin 126 Ts.TypeExpr.textBody Ts.TypeExpr.text
                  (type.toTs owner).result := by
  constructor
  · intro document hparse n value hn hvalue
    exact Idl.recursesWithin_ofValue (depth_ofValue_le_of_holds hparse hn hvalue)
  · intro roots hload
    unfold Idl.loadText at hload
    split at hload
    · rename_i document hparse
      refine ⟨document, hparse, ?_⟩
      intro root hroot type htype
      have hfrom : LoadedFrom document 2 type := Idl.loadedFrom_load hload hroot type htype
      have hdepth : type.depth ≤ 63 := hfrom.depth_le 125 (Json.depth_le_of_parse hparse)
      refine ⟨hfrom, hdepth, fun owner => ⟨Idl.recursesWithin_toTs owner hdepth, ?_⟩⟩
      apply Ts.recursesWithin_text
      calc (type.toTs owner).result.depth
          ≤ 2 * type.depth := Idl.TypeExpr.depth_toTs_le owner type
        _ ≤ 126 := by omega
    · cases hload

/-! ### The deepest types -/

/-- The description of a type with two nodes more for each floor, one in either spelling. -/
def tower : Nat → Value
  | 0 => .object [("idlType", .string "Node"), ("nullable", .bool true)]
  | n + 1 =>
      .object [("generic", .string "sequence"),
        ("idlType",
          .array [.array [.string "sequence", .bool true, .bool false, .array [tower n]]]),
        ("nullable", .bool true)]

theorem ofValue_tower (n : Nat) :
    Idl.TypeExpr.ofValue (tower (n + 1)) =
      .generic "sequence" [.generic "sequence" [.ofValue (tower n)] true] true := rfl

theorem depth_ofValue_tower (n : Nat) : (Idl.TypeExpr.ofValue (tower n)).depth = 2 * n + 1 := by
  induction n with
  | zero => rfl
  | succ n ih =>
      rw [ofValue_tower]
      simp only [Idl.TypeExpr.depth, Idl.typesDepth, ih]
      omega

theorem depth_tower (n : Nat) : (tower n).depth = 4 * n + 1 := by
  induction n with
  | zero => rfl
  | succ n ih =>
      simp only [tower, Value.depth, Json.itemsDepth, Json.fieldsDepth, ih]
      omega

theorem isExact_tower (n : Nat) : (tower n).IsExact := by
  have hkeys : ["generic", "idlType", "nullable"].Pairwise (· < ·) := by decide
  induction n with
  | zero => exact ⟨by decide, trivial, trivial, trivial⟩
  | succ n ih =>
      have hinner : (Value.array [.string "sequence", .bool true, .bool false,
          .array [tower n]]).IsExact := ⟨trivial, trivial, trivial, ⟨ih, trivial⟩, trivial⟩
      exact ⟨hkeys, trivial, ⟨hinner, trivial⟩, trivial, trivial⟩

theorem orNullIf_sequence (type : Ts.TypeExpr) :
    orNullIf true (resolve "sequence") type = type.orNull :=
  if_pos (by decide)

theorem depth_toTs_tower (owner : Option String) (n : Nat) :
    ((Idl.TypeExpr.ofValue (tower n)).toTs owner).result.depth = 4 * n + 2 := by
  induction n with
  | zero => rfl
  | succ n ih =>
      rw [ofValue_tower]
      simp only [Idl.TypeExpr.toTs, Idl.TypeExpr.listToTs, Noted.result_bind, Noted.result_pure,
        orNullIf_sequence, Ts.TypeExpr.depth_orNull, Ts.TypeExpr.depth, Ts.typesDepth, ih]
      omega

/-- A document with one type, as deep as a text may be. -/
def towerDocument : Value :=
  .array [.object [("idlType", tower 31), ("name", .string "Tower"), ("type", .string "callback")]]

/-- A type of 63 nodes one below the other can be loaded, and it can become one of 126. -/
theorem recursesWithin_tower :
    towerDocument.depth = Json.depthLimit ∧
      RecursesWithin 63 Idl.TypeExpr.ofValueBody Idl.TypeExpr.ofValue (tower 31) ∧
      ∃ type : Idl.TypeExpr,
        Idl.loadText towerDocument.dump = .ok [.callback "Tower" type []] ∧ type.depth = 63 ∧
          RecursesWithin 63 (Idl.TypeExpr.toTsBody none) (Idl.TypeExpr.toTs none) type ∧
          (type.toTs none).result.depth = 126 ∧
          RecursesWithin 126 Ts.TypeExpr.textBody Ts.TypeExpr.text (type.toTs none).result := by
  have hexact : towerDocument.IsExact :=
    ⟨⟨by decide, isExact_tower 31, trivial, trivial, trivial⟩, trivial⟩
  have hdepth : towerDocument.depth = Json.depthLimit := by
    simp only [towerDocument, Value.depth, Json.itemsDepth, Json.fieldsDepth, depth_tower,
      Json.depthLimit]
    omega
  have hparse : Json.parse Json.depthLimit towerDocument.dump = .ok towerDocument :=
    Json.parse_dump hexact (Nat.le_of_eq hdepth)
  have hload : Idl.loadText towerDocument.dump =
      .ok [.callback "Tower" (.ofValue (tower 31)) []] := by
    rw [Idl.loadText_dump hexact (Nat.le_of_eq hdepth)]
    rfl
  have hinside : towerDocument.Holds 2 (tower 31) := .item (.head _) (.field (.head _) (.self _))
  obtain ⟨hread, hmodel⟩ := recursesWithin_of_text towerDocument.dump
  obtain ⟨_, -, htypes⟩ := hmodel _ hload
  obtain ⟨-, -, hcalls⟩ := htypes _ (.head _) _ (.head _)
  obtain ⟨hconverted, hwritten⟩ := hcalls none
  exact ⟨hdepth, hread _ hparse 2 (tower 31) (Nat.le_refl 2) hinside, _, hload,
    depth_ofValue_tower 31, hconverted, depth_toTs_tower none 31, hwritten⟩

end IdlTypings.Conversion
