import BeanForge.Document.Violation
import BeanForge.Proofs.Document.Acceptance
import BeanForge.Proofs.Scopes
/-!
# The first violation

`Document.check` reports the first violation of a document and no other. The check of a scope knows
the earlier declarations by the names and classes they have taken, while violations are said of the
declarations themselves: `TakenBy` relates the two. `visits` puts the declarations of a document
into one list, so that the order of the violations and their places can be read off from it.
-/
namespace BeanForge

namespace Declaration

open Fallible

structure TakenBy (taken : Taken) (earlier : List Declaration) : Prop where
  names : ∀ n, n ∈ taken.names ↔ ∃ e ∈ earlier, e.name = some n
  classes : ∀ c, c ∈ taken.classes ↔
    ∃ e ∈ earlier, e.typeName = some classType ∧ e.className = some c

lemma takenBy_nothing : TakenBy {} [] := by
  constructor <;> simp

lemma TakenBy.add {taken : Taken} {earlier : List Declaration} (h : TakenBy taken earlier)
    (d : Declaration) : TakenBy (taken.add d) (earlier ++ [d]) := by
  constructor
  · intro n
    simp only [Taken.add, List.mem_append, h.names, Option.mem_toList, List.mem_singleton,
      or_and_right, exists_or, exists_eq_left]
    exact or_comm
  · intro c
    by_cases hclass : d.declaresClass
    · have htype := (declaresClass_iff d).mp hclass
      simp only [Taken.add, hclass, htype, if_true, List.mem_append, h.classes, Option.mem_toList,
        List.mem_singleton, or_and_right, exists_or, exists_eq_left, true_and]
      exact or_comm
    · have htype := mt (declaresClass_iff d).mpr hclass
      simp [Taken.add, hclass, htype, h.classes, or_and_right, exists_or]

lemma reports_checkPath (jsonPath : Option String) (type : String) :
    Reports (checkPath jsonPath type) (pathFaults jsonPath ++ conversionFaults (some type)) := by
  cases jsonPath with
  | none => rfl
  | some path =>
    have hconversion := (reports_pure path).guard (c := (TypeName.conversion? type).isNone = true)
      (b := (TypeName.conversion? type).isSome) (by simp) (Fault.notConvertible type)
    have hsegments := hconversion.guard (c := (JsonPath.segments path).any (·.isEmpty) = true)
      (b := !(JsonPath.segments path).contains "") (by simp) (.emptySegment path)
    have hslash := hsegments.guard (c := path.toList.head? = some '/')
      (b := path.toList.head? != some '/') (by simp) .leadingSlash
    simpa [checkPath, pathFaults, conversionFaults, Fault.unless] using hslash

/-- The checks of a declaration by itself report its own faults in their order. -/
lemma reports_outline (decodes : Bool) {taken : Taken} {earlier : List Declaration}
    (h : TakenBy taken earlier) (d : Declaration) :
    Reports (outline decodes taken.names d) (ownFaults decodes earlier d) := by
  unfold outline ownFaults
  cases d.name with
  | none => rfl
  | some name =>
    have hfresh : name ∈ taken.names ↔ (!earlier.any (·.name == some name)) = false := by
      simp [h.names]
    simp only [error_bind, Option.elim_some, ok_bind, List.append_assoc]
    refine Reports.guard ?_ hfresh (Fault.duplicateName name)
    cases d.typeName with
    | none => rfl
    | some type =>
      cases d.access with
      | none => rfl
      | some spelling =>
        cases haccess : Access.ofText? spelling with
        | none => simp [accessFaults, haccess, Fault.unless, Reports]
        | some access =>
          cases decodes with
          | false => simp [accessFaults, haccess, Fault.unless, Reports]
          | true =>
            have hpath := (reports_checkPath d.jsonPath type).bind fun path _ =>
              reports_pure (Outline.mk name type access (some ⟨path, d.jsonOptional⟩))
            simpa [accessFaults, haccess, Fault.unless] using hpath

lemma nestedViolations_of_class (decodes : Bool) (scope : String) {d : Declaration}
    (h : d.declaresClass) {c : String} (hc : d.className = some c) {ds : List Declaration}
    (hds : d.properties = some ds) :
    nestedViolations decodes scope d = scopeViolations decodes (nestedScope scope c) [] ds := by
  obtain ⟨name, typeName, access, isList, className, properties, jsonPath, jsonOptional⟩ := d
  rw [declaresClass_iff] at h
  simp only at h hc hds
  subst h hc hds
  simp [nestedViolations]

lemma nestedViolations_of_plain (decodes : Bool) (scope : String) {d : Declaration}
    (h : ¬ d.declaresClass) : nestedViolations decodes scope d = [] := by
  obtain ⟨name, typeName, access, isList, className, properties, jsonPath, jsonOptional⟩ := d
  rw [declaresClass_iff] at h
  cases properties with
  | none => rfl
  | some ds => exact if_neg h

/-- The check of a declaration reports its own violations first, then those in its class. -/
lemma reports_check {decodes : Bool} {d : Declaration}
    (hscope : ∀ ds, d.properties = some ds → ∀ scope,
      Reports (checkScope decodes scope 0 {} ds) (scopeViolations decodes scope [] ds))
    (scope : String) {taken : Taken} {earlier : List Declaration} (h : TakenBy taken earlier) :
    Reports (d.check decodes scope earlier.length taken)
      ((d.faults decodes earlier).map (Rejection.mk (location scope earlier.length d.name)) ++
        nestedViolations decodes scope d) := by
  have houtline := reports_outline decodes h d
  cases ho : outline decodes taken.names d with
  | error fault =>
    rw [ho] at houtline
    rw [check_of_error ho, faults, List.map_append, List.append_assoc]
    exact head?_append_of_eq_some (houtline.mapError _) _
  | ok o =>
    rw [ho] at houtline
    obtain ⟨-, -, rfl⟩ := (outline_eq_ok_iff decodes taken.names d o).mp ho
    have htype := outlined_typeName_eq_iff decodes d
    rw [faults, houtline.eq_nil, List.nil_append]
    by_cases hclass : d.declaresClass
    · rw [check_of_class ho (htype.mpr hclass), if_pos ((declaresClass_iff d).mp hclass),
        classFaults]
      cases hc : d.className with
      | none => rfl
      | some c =>
        cases hds : d.properties with
        | none => rfl
        | some ds =>
          rw [nestedViolations_of_class decodes scope hclass hc hds]
          have hfresh : c ∈ taken.classes ↔ (!earlier.any fun e =>
              e.typeName == some classType && e.className == some c) = false := by
            simp [h.classes]
          have hinner := ((hscope ds hds (nestedScope scope c)).map fun ps =>
            ((⟨(d.outlined decodes).name, (d.outlined decodes).typeName,
              (d.outlined decodes).access, d.isList, some ⟨c, ps⟩, (d.outlined decodes).binding⟩,
              ⟨(d.outlined decodes).name :: taken.names, c :: taken.classes⟩) :
                Property × Taken)).guard hfresh
              (⟨location scope earlier.length d.name, .duplicateClass c⟩ : Rejection)
          simpa [classNameFaults, Fault.unless, apply_ite] using hinner
    · rw [check_of_plain ho (mt htype.mp hclass), if_neg (mt (declaresClass_iff d).mpr hclass),
        nestedViolations_of_plain decodes scope hclass]
      rfl

lemma checkScope_cons_of_ok {decodes : Bool} {scope : String} {index : ℕ} {taken taken' : Taken}
    {d : Declaration} {p : Property}
    (h : d.check decodes scope index taken = .ok (p, taken')) (ds : List Declaration) :
    checkScope decodes scope index taken (d :: ds) =
      (checkScope decodes scope (index + 1) taken' ds).map (p :: ·) := by
  rw [checkScope, h]
  cases hrest : checkScope decodes scope (index + 1) taken' ds <;> simp [hrest, Except.map]

lemma checkScope_cons_of_error {decodes : Bool} {scope : String} {index : ℕ} {taken : Taken}
    {d : Declaration} {r : Rejection} (h : d.check decodes scope index taken = .error r)
    (ds : List Declaration) : checkScope decodes scope index taken (d :: ds) = .error r := by
  rw [checkScope, h]

/-- The check of a scope reports the violations in it, from the first declaration to the last. -/
theorem reports_checkScope (decodes : Bool) (scope : String) {taken : Taken}
    {earlier : List Declaration} (h : TakenBy taken earlier) (ds : List Declaration) :
    Reports (checkScope decodes scope earlier.length taken ds)
      (scopeViolations decodes scope earlier ds) := by
  induction ds using scope_induction generalizing scope taken earlier with
  | nil => rfl
  | cons d ds ihd ihds =>
    have hd := reports_check (fun es hes scope => ihd es hes scope takenBy_nothing) scope h
    rw [scopeViolations]
    cases hcheck : d.check decodes scope earlier.length taken with
    | error r =>
      rw [hcheck] at hd
      rw [checkScope_cons_of_error hcheck]
      exact head?_append_of_eq_some hd _
    | ok found =>
      obtain ⟨p, taken'⟩ := found
      rw [hcheck] at hd
      obtain ⟨-, -, rfl, -⟩ := (check_eq_ok_iff_checkScope _ _ _ _ _ _ _).mp hcheck
      have hrest := ihds scope (h.add d)
      rw [List.length_append, List.length_singleton] at hrest
      rw [hd.eq_nil, List.nil_append, checkScope_cons_of_ok hcheck]
      exact hrest.map _

end Declaration

namespace Document

open Fallible

lemma reports_checkUse (profile : Profile) (d : Document) :
    Reports (d.checkUse profile) (d.useFaults profile) := by
  have hwrappers := (reports_pure (ε := Fault) ()).guard (c := (profile.wrappers && d.noQt) = true)
    (b := !(profile.wrappers && d.noQt)) (by simp) .wrappersForbidden
  unfold checkUse useFaults
  simp only [error_bind]
  cases profile.decodes with
  | false => simpa [Fault.unless] using hwrappers
  | true =>
    cases d.source with
    | none => rfl
    | some source =>
      have hsource := hwrappers.guard (c := source ≠ "json") (b := source == "json") (by simp)
        (.unsupportedSource source)
      simpa [Fault.unless] using hsource

/-- The check of a document reports its violations in their order. -/
theorem reports_check (target : Target) (d : Document) :
    Reports (d.check target) (d.violations target) := by
  have huse := reports_checkUse target.profile d
  unfold check violations rootFaults
  cases d.name with
  | none => rfl
  | some name =>
    cases d.moduleName with
    | none => rfl
    | some moduleName =>
      cases d.properties with
      | none => rfl
      | some ds =>
        have hscope := (Declaration.reports_checkScope target.profile.decodes name
          Declaration.takenBy_nothing ds).bind fun ps _ =>
            reports_pure (Schema.mk name moduleName ps)
        have hall := (huse.mapError (Rejection.mk name)).bind fun _ _ => hscope
        simpa [Fault.unless] using hall

end Document

namespace Declaration

structure Visit where
  /-- The name of the root class and those of the classes around the declaration. -/
  classes : List String
  /-- The declarations before it in its scope. -/
  earlier : List Declaration
  declaration : Declaration

mutual

/-- The declarations in the class of a declaration, if it declares one. -/
def visitsIn (classes : List String) : Declaration → List Visit
  | ⟨_, typeName, _, _, className, some ds, _, _⟩ =>
    if typeName = some classType then visits (classes ++ [className.getD ""]) [] ds else []
  | ⟨_, _, _, _, _, none, _, _⟩ => []

/-- The declarations of a scope from the first to the last, each followed by those in its class. -/
def visits (classes : List String) (earlier : List Declaration) : List Declaration → List Visit
  | [] => []
  | d :: ds => ⟨classes, earlier, d⟩ :: (visitsIn classes d ++ visits classes (earlier ++ [d]) ds)

end

namespace Visit

/-- The place of a declaration: the names of all classes around it, then its own name, or its index
in its scope if it has none. -/
def location (v : Visit) : String :=
  Text.join "::" v.classes ++ "/" ++
    v.declaration.name.getD ("properties[" ++ toString v.earlier.length ++ "]")

/-- What is wrong with a declaration itself, at its place. -/
def violations (decodes : Bool) (v : Visit) : List Rejection :=
  (v.declaration.faults decodes v.earlier).map (Rejection.mk v.location)

end Visit

lemma location_visit (classes : List String) (earlier : List Declaration) (d : Declaration) :
    Declaration.location (Text.join "::" classes) earlier.length d.name =
      (⟨classes, earlier, d⟩ : Visit).location := by
  unfold Declaration.location Visit.location
  cases d.name with
  | some name => rfl
  | none =>
    have hindex : "/properties[" = "/" ++ "properties[" := rfl
    simp only [hindex, Option.getD_none, String.append_assoc]

/-- Violations are met declaration by declaration. -/
theorem scopeViolations_eq_flatMap (decodes : Bool) {classes : List String} (h : classes ≠ [])
    (earlier ds : List Declaration) :
    scopeViolations decodes (Text.join "::" classes) earlier ds =
      (visits classes earlier ds).flatMap (Visit.violations decodes) := by
  induction ds using scope_induction generalizing classes earlier with
  | nil => rfl
  | cons d ds ihd ihds =>
    have hnested : nestedViolations decodes (Text.join "::" classes) d =
        (visitsIn classes d).flatMap (Visit.violations decodes) := by
      obtain ⟨name, typeName, access, isList, className, properties, jsonPath, jsonOptional⟩ := d
      cases properties with
      | none => rfl
      | some es =>
        rw [nestedViolations, visitsIn]
        by_cases hclass : typeName = some classType
        · rw [if_pos hclass, if_pos hclass, ← ihd es rfl (by simp), nestedScope,
            Text.join_concat "::" h]
        · rw [if_neg hclass, if_neg hclass]
          rfl
    rw [scopeViolations, visits, List.flatMap_cons, List.flatMap_append, ← ihds h, ← hnested,
      location_visit, List.append_assoc]
    rfl

end Declaration

namespace Document

/-- What is wrong with a document as a whole, then what is wrong with each declaration on the way
through it. -/
lemma violations_eq (target : Target) (d : Document) :
    d.violations target =
      (d.rootFaults target.profile).map (Rejection.mk (d.name.getD namelessLocation)) ++
        (Declaration.visits [d.name.getD namelessLocation] [] (d.properties.getD [])).flatMap
          (Declaration.Visit.violations target.profile.decodes) := by
  rw [violations, ← Declaration.scopeViolations_eq_flatMap _ (by simp)]
  rfl

/-- A document is rejected with the first of its violations: those of the document as a whole come
first, then those of its declarations, each met before the declarations in its class, and these
before the next declaration of its scope. -/
theorem check_eq_error_iff (target : Target) (d : Document) (r : Rejection) :
    d.check target = .error r ↔
      ((d.rootFaults target.profile).map (Rejection.mk (d.name.getD namelessLocation)) ++
        (Declaration.visits [d.name.getD namelessLocation] [] (d.properties.getD [])).flatMap
          (Declaration.Visit.violations target.profile.decodes)).head? = some r := by
  rw [← violations_eq]
  exact (reports_check target d).eq_error_iff r

end Document

end BeanForge
