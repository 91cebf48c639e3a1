import BeanForge.Failure
import BeanForge.Proofs.Document.Targets
import BeanForge.Rendering
/-!
# Fields that a target does not use

Value classes and wrappers are made without a look at the bindings of a document, and no target looks
at a class in a declaration of another type. Two documents that differ in nothing else yield the same
files, or fail in the same way. A declaration may hold others at any depth, so a field is taken out
of all of them by a change made from the innermost outwards; the check of a scope does not see the
change if the check of a single declaration does not.
-/
namespace BeanForge

namespace Declaration

mutual

/-- A declaration after a change to all declarations in it and then to itself. -/
def revise (change : Declaration → Declaration) : Declaration → Declaration
  | ⟨name, typeName, access, isList, className, some ds, jsonPath, jsonOptional⟩ =>
    change ⟨name, typeName, access, isList, className, some (reviseAll change ds), jsonPath,
      jsonOptional⟩
  | ⟨name, typeName, access, isList, className, none, jsonPath, jsonOptional⟩ =>
    change ⟨name, typeName, access, isList, className, none, jsonPath, jsonOptional⟩

def reviseAll (change : Declaration → Declaration) : List Declaration → List Declaration
  | [] => []
  | d :: ds => d.revise change :: reviseAll change ds

end

/-- A declaration without its binding. -/
def dropBinding (d : Declaration) : Declaration :=
  { d with jsonPath := none, jsonOptional := false }

/-- A declaration without what it says about a class, if it has the type of something else. -/
def dropStrayClass (d : Declaration) : Declaration :=
  match d.typeName with
  | none => d
  | some type => if type = classType then d else { d with className := none, properties := none }

lemma revise_eq (change : Declaration → Declaration) (d : Declaration) :
    d.revise change = change { d with properties := d.properties.map (reviseAll change) } := by
  obtain ⟨_, _, _, _, _, _ | _, _, _⟩ := d <;> rfl

/-- A change that the check of a declaration does not see: neither in the checks of the declaration
itself, nor in the class that it declares. -/
structure Unseen (decodes : Bool) (change : Declaration → Declaration) : Prop where
  name : ∀ d, (change d).name = d.name
  isList : ∀ d, (change d).isList = d.isList
  outline : ∀ taken d, outline decodes taken (change d) = outline decodes taken d
  nested : ∀ d, d.declaresClass →
    (change d).className = d.className ∧ (change d).properties = d.properties

lemma unseen_dropBinding : Unseen false dropBinding where
  name _ := rfl
  isList _ := rfl
  outline _ _ := rfl
  nested _ _ := ⟨rfl, rfl⟩

lemma dropStrayClass_of_class {d : Declaration} (h : d.declaresClass) : d.dropStrayClass = d := by
  rw [dropStrayClass, (declaresClass_iff d).mp h]
  exact if_pos rfl

/-- Only the class is taken away. -/
lemma dropStrayClass_eq (d : Declaration) : d.dropStrayClass =
    { d with className := d.dropStrayClass.className, properties := d.dropStrayClass.properties } := by
  obtain ⟨name, typeName, access, isList, className, properties, jsonPath, jsonOptional⟩ := d
  unfold dropStrayClass
  cases typeName with
  | none => rfl
  | some type => by_cases htype : type = classType <;> simp [htype]

lemma unseen_dropStrayClass (decodes : Bool) : Unseen decodes dropStrayClass where
  name d := by rw [dropStrayClass_eq]
  isList d := by rw [dropStrayClass_eq]
  outline taken d := by
    rw [dropStrayClass_eq]
    rfl
  nested d h := by
    rw [dropStrayClass_of_class h]
    exact ⟨rfl, rfl⟩

/-- The check of a declaration does not see a change to it and to the declarations in it. -/
lemma check_revise {decodes : Bool} {change : Declaration → Declaration} (h : Unseen decodes change)
    {d : Declaration}
    (hscope : ∀ es, d.properties = some es → ∀ scope,
      checkScope decodes scope 0 {} (reviseAll change es) = checkScope decodes scope 0 {} es)
    (scope : String) (index : ℕ) (taken : Taken) :
    (d.revise change).check decodes scope index taken = d.check decodes scope index taken := by
  set d' : Declaration := { d with properties := d.properties.map (reviseAll change) } with hd'
  have houtline : outline decodes taken.names (change d') = outline decodes taken.names d := by
    rw [h.outline]
    rfl
  rw [revise_eq, ← hd']
  cases ho : outline decodes taken.names d with
  | error fault =>
    rw [check_of_error (houtline.trans ho), check_of_error ho, h.name]
  | ok o =>
    obtain ⟨-, -, rfl⟩ := (outline_eq_ok_iff decodes taken.names d o).mp ho
    have htype := outlined_typeName_eq_iff decodes d
    by_cases hclass : d.declaresClass
    · obtain ⟨hname, hproperties⟩ := h.nested d' hclass
      rw [check_of_class (houtline.trans ho) (htype.mpr hclass),
        check_of_class ho (htype.mpr hclass), h.name, h.isList, hname, hproperties]
      cases hc : d.className with
      | none => rw [hd', hc]
      | some c =>
        cases hds : d.properties with
        | none => rw [hd', hc, hds]; rfl
        | some es => rw [hd', hc, hds]; simp only [Option.map_some, hscope es hds]
    · rw [check_of_plain (houtline.trans ho) (mt htype.mp hclass),
        check_of_plain ho (mt htype.mp hclass), h.isList]

/-- Nor does the check of a scope, in which every declaration is changed. -/
theorem checkScope_reviseAll {decodes : Bool} {change : Declaration → Declaration}
    (h : Unseen decodes change) (scope : String) (index : ℕ) (taken : Taken)
    (ds : List Declaration) :
    checkScope decodes scope index taken (reviseAll change ds) =
      checkScope decodes scope index taken ds := by
  induction ds using scope_induction generalizing scope index taken with
  | nil => rfl
  | cons d ds ihd ihds =>
    have hd := check_revise h (fun es hes scope => ihd es hes scope 0 {}) scope index taken
    rw [reviseAll, checkScope, checkScope, hd]
    simp only [ihds]

end Declaration

namespace Document

/-- A document after a change to all declarations in it. -/
def revise (change : Declaration → Declaration) (d : Document) : Document :=
  { d with properties := d.properties.map (Declaration.reviseAll change) }

/-- What value classes are made of: a document without its source and its bindings, and without its
word on wrappers. -/
def valuePart (d : Document) : Document :=
  { d.revise Declaration.dropBinding with source := none, noQt := false }

/-- A document without the classes of declarations that have another type. -/
def withoutStrayClasses (d : Document) : Document :=
  d.revise Declaration.dropStrayClass

/-- The files that a document yields for a target, or why it yields none. -/
def generated (target : Target) (stem : String) (d : Document) :
    Except Failure (List OutputFile) :=
  match d.check target with
  | .error r => .error (.rejected r)
  | .ok s => ((s.model target).files? stem).elim (.error .unrenderable) .ok

lemma check_revise {target : Target} {change : Declaration → Declaration}
    (h : Declaration.Unseen target.profile.decodes change) (d : Document) :
    (d.revise change).check target = d.check target := by
  refine check_congr rfl rfl rfl fun name => ?_
  rw [revise, Option.map_map]
  congr 1
  funext ds
  exact Declaration.checkScope_reviseAll h name 0 {} ds

lemma check_withoutStrayClasses (target : Target) (d : Document) :
    d.withoutStrayClasses.check target = d.check target :=
  check_revise (Declaration.unseen_dropStrayClass _) d

lemma check_dropBinding {target : Target} (h : target.profile.decodes = false) (d : Document) :
    (d.revise Declaration.dropBinding).check target = d.check target :=
  check_revise (h ▸ Declaration.unseen_dropBinding) d

lemma check_bean_valuePart (d : Document) : d.valuePart.check .bean = d.check .bean := by
  rw [← check_dropBinding rfl d]
  exact check_congr rfl rfl (by rw [checkUse_bean, checkUse_bean]) fun _ => rfl

lemma check_qtbean_valuePart (d : Document) :
    ({ d.valuePart with noQt := d.noQt } : Document).check .qtbean = d.check .qtbean := by
  rw [← check_dropBinding rfl d]
  exact check_congr rfl rfl rfl fun _ => rfl

lemma generated_congr {target : Target} {d e : Document} (h : d.check target = e.check target)
    (stem : String) : d.generated target stem = e.generated target stem := by
  rw [generated, generated, h]

/-- Documents that differ in their source and their bindings only, at whatever depth, yield the same
value classes, or fail in the same way, and so they do for wrappers if both forbid them or neither
does. For no target does it matter what a declaration of another type says about a class, nor what
is wrong in there. -/
theorem generated_unaffected (stem : String) :
    (∀ d e : Document, d.valuePart = e.valuePart →
      d.generated .bean stem = e.generated .bean stem ∧
        (d.noQt = e.noQt → d.generated .qtbean stem = e.generated .qtbean stem)) ∧
    ∀ (target : Target) (d e : Document), d.withoutStrayClasses = e.withoutStrayClasses →
      d.generated target stem = e.generated target stem := by
  refine ⟨fun d e h => ⟨?_, fun hqt => ?_⟩, fun target d e h => ?_⟩
  · refine generated_congr ?_ stem
    rw [← check_bean_valuePart d, h, check_bean_valuePart e]
  · refine generated_congr ?_ stem
    rw [← check_qtbean_valuePart d, h, hqt, check_qtbean_valuePart e]
  · refine generated_congr ?_ stem
    rw [← check_withoutStrayClasses target d, h, check_withoutStrayClasses target e]

/-- A document with a binding for each property and a class for its text, or without them. -/
def signDocument (source path : Option String) (stray : Option (List Declaration)) : Document where
  name := some "Sign"
  moduleName := some "rail"
  source := source
  properties := some [
    { name := some "text", typeName := some "QString", access := some "rw", jsonPath := path,
      className := stray.map fun _ => "Arrow", properties := stray },
    { name := some "arrow", typeName := some "class", access := some "r", className := some "Arrow",
      jsonPath := path, properties := some [
        { name := some "angle", typeName := some "int", access := some "c", jsonPath := path,
          jsonOptional := source.isSome }] }]

/-- A sign has its value classes and wrappers without a source and with a path that leads nowhere.
The nameless declarations in the class of a text are not met for any target. -/
theorem generated_unaffected_sign :
    let bound := signDocument (some "json") (some "sign/value") none
    let unbound := signDocument none (some "/") none
    let stray := signDocument (some "json") (some "sign/value") (some [{}, {}])
    (bound.valuePart = unbound.valuePart ∧ bound.noQt = unbound.noQt ∧
      bound.generated .bean "sign" = unbound.generated .bean "sign" ∧
      bound.generated .qtbean "sign" = unbound.generated .qtbean "sign") ∧
    (bound.withoutStrayClasses = stray.withoutStrayClasses ∧
      bound.generated .factory "sign" = stray.generated .factory "sign") ∧
    (∃ files, stray.generated .factory "sign" = .ok files) ∧
      unbound.generated .factory "sign" = .error (.rejected ⟨"Sign", .missingField "source"⟩) := by
  intro bound unbound stray
  have hvalue : bound.valuePart = unbound.valuePart := rfl
  have hstray : bound.withoutStrayClasses = stray.withoutStrayClasses := rfl
  obtain ⟨hbean, hqtbean⟩ := (generated_unaffected "sign").1 bound unbound hvalue
  exact ⟨⟨hvalue, rfl, hbean, hqtbean rfl⟩,
    ⟨hstray, (generated_unaffected "sign").2 .factory bound stray hstray⟩, ⟨_, rfl⟩, rfl⟩

end Document

end BeanForge
