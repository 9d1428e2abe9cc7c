import IdlTypings.Command.Run
import IdlTypings.Proofs.Idl.Equality

/-!
# Equal models convert equally

A conversion looks up the attribute `Exposed` and nothing else in the attributes of a definition, so
their order leaves no trace in it.
-/

namespace IdlTypings.Conversion

open Idl (IsDoubleFree Root SameModel)

theorem isExposedOn_eq_of_perm {attrs others : Idl.ExtAttrs}
    (h : attrs.entries.Perm others.entries) (global : String) :
    attrs.isExposedOn global = others.isExposedOn global := by
  rw [Idl.ExtAttrs.isExposedOn, Idl.ExtAttrs.isExposedOn, Idl.ExtAttrs.get?_eq_of_perm h]

theorem definitionDeclarations_eq_of_same {d e : Idl.Definition} (h : d.Same e) (mode : Mode) :
    definitionDeclarations mode d = definitionDeclarations mode e := by
  obtain ⟨name, inheritance, members, attrs⟩ := d
  obtain ⟨otherName, otherInheritance, otherMembers, otherAttrs⟩ := e
  obtain ⟨rfl, rfl, rfl, hattrs⟩ := h
  have hglobals : windowGlobals ⟨name, inheritance, members, attrs⟩ =
      windowGlobals ⟨name, inheritance, members, otherAttrs⟩ := by
    rw [windowGlobals, windowGlobals, isExposedOn_eq_of_perm hattrs]
  rw [definitionDeclarations, definitionDeclarations, hglobals]
  rfl

theorem item?_eq_of_same {root other : Root} (h : root.Same other) (mode : Mode) :
    item? mode root = item? mode other := by
  cases h with
  | definition h =>
      rw [item?, item?, definitionDeclarations_eq_of_same h, h.name]
  | refl => rfl

theorem convert_eq_of_same {a b : List Root} (h : SameModel a b) (mode : Mode) :
    convert mode a = convert mode b := by
  have heach : Noted.each (item? mode) a = Noted.each (item? mode) b := by
    induction h with
    | nil => rfl
    | cons hroot _ ih => rw [Noted.each, Noted.each, item?_eq_of_same hroot, ih]
  rw [convert, convert, heach]

/-- **Equal models cannot be told apart.** On models in which no double was kept, the comparison
asks whether they are the same but for the order of attributes. If they are, they have the same items
and the same diagnostics in either mode, so the same text is printed for them and the same report.
There the comparison is reflexive, symmetric and transitive. -/
theorem convert_eq_of_beq :
    (∀ a b : List Root, IsDoubleFree a → ((a == b) = true ↔ SameModel a b)) ∧
    (∀ a b : List Root, IsDoubleFree a → (a == b) = true → ∀ mode : Mode,
      (convert mode a).items = (convert mode b).items ∧
        (convert mode a).diagnostics = (convert mode b).diagnostics ∧
        (∀ settings : Settings, Command.outputText settings (convert mode a) =
          Command.outputText settings (convert mode b)) ∧
        Report.render (convert mode a) = Report.render (convert mode b)) ∧
    (∀ a : List Root, IsDoubleFree a → (a == a) = true) ∧
    (∀ a b : List Root, IsDoubleFree a → (a == b) = true → (b == a) = true) ∧
    ∀ a b c : List Root, IsDoubleFree a → (a == b) = true → (b == c) = true → (a == c) = true := by
  refine ⟨fun _ b ha => Idl.beq_iff_sameModel ha b, ?_, ?_, ?_, ?_⟩
  · intro a b ha hab mode
    have hconvert := convert_eq_of_same ((Idl.beq_iff_sameModel ha b).mp hab) mode
    rw [hconvert]
    exact ⟨rfl, rfl, fun _ => rfl, rfl⟩
  · intro a ha
    exact (Idl.beq_iff_sameModel ha a).mpr (.refl a)
  · intro a b ha hab
    have hsame := (Idl.beq_iff_sameModel ha b).mp hab
    exact (Idl.beq_iff_sameModel (hsame.isDoubleFree ha) a).mpr hsame.symm
  · intro a b c ha hab hbc
    have hsame := (Idl.beq_iff_sameModel ha b).mp hab
    have hsame' := (Idl.beq_iff_sameModel (hsame.isDoubleFree ha) c).mp hbc
    exact (Idl.beq_iff_sameModel ha c).mpr (hsame.trans hsame')

/-- A program with one interface, which has these attributes and a member that is skipped. -/
def gadgetWith (entries : List Idl.AttrEntry) : List Root :=
  [.definition .interface
    { name := "Gadget"
      inheritance := some "Tool"
      members := [.unsupported "odd" (.array [.number (.integer 7), .null])]
      extAttrs := .ofList entries }]

def exposedFirst : List Root := gadgetWith [("Exposed", ["Window"]), ("SecureContext", [])]

def exposedLast : List Root := gadgetWith [("SecureContext", []), ("Exposed", ["Window"])]

theorem convert_eq_of_beq_gadget :
    (IsDoubleFree exposedFirst ∧ exposedFirst ≠ exposedLast ∧
        (exposedFirst == exposedLast) = true) ∧
      (∀ mode : Mode, (convert mode exposedFirst).items = (convert mode exposedLast).items ∧
        (convert mode exposedFirst).diagnostics = (convert mode exposedLast).diagnostics ∧
        Report.render (convert mode exposedFirst) = Report.render (convert mode exposedLast)) ∧
      (exposedFirst == exposedFirst) = true ∧ (exposedLast == exposedFirst) = true := by
  have hfree : IsDoubleFree exposedFirst :=
    List.forall_mem_singleton.mpr ⟨trivial, trivial, trivial⟩
  have hne : exposedFirst ≠ exposedLast := by
    intro h
    simp only [exposedFirst, exposedLast, gadgetWith, List.cons.injEq, Root.definition.injEq,
      Idl.Definition.mk.injEq] at h
    have hentries := congrArg Idl.ExtAttrs.entries h.1.2.2.2.2
    exact absurd hentries (by decide)
  have heq : (exposedFirst == exposedLast) = true := by decide
  obtain ⟨-, hconvert, hrefl, hsymm, -⟩ := convert_eq_of_beq
  refine ⟨⟨hfree, hne, heq⟩, fun mode => ?_, hrefl _ hfree, hsymm _ _ hfree heq⟩
  obtain ⟨hitems, hdiagnostics, -, hreport⟩ := hconvert _ _ hfree heq mode
  exact ⟨hitems, hdiagnostics, hreport⟩

end IdlTypings.Conversion
