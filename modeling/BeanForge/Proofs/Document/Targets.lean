import BeanForge.Proofs.Document.FirstViolation
import BeanForge.Proofs.Document.Unbound
/-!
# What the targets demand of a document

Value classes demand the least. Wrappers demand only that the document does not forbid them, and are
made from the same schema. Decoders demand a binding of every declaration, and forgive nothing for
it: whatever is wrong with a document for value classes is wrong with it for every target.
-/
namespace BeanForge

namespace Declaration

lemma ownFaults_sublist (decodes : Bool) (earlier : List Declaration) (d : Declaration) :
    (d.ownFaults false earlier).Sublist (d.ownFaults decodes earlier) :=
  (List.Sublist.refl _).append (by simp)

lemma faults_sublist (decodes : Bool) (earlier : List Declaration) (d : Declaration) :
    (d.faults false earlier).Sublist (d.faults decodes earlier) :=
  (d.ownFaults_sublist decodes earlier).append (List.Sublist.refl _)

/-- Bindings are checked in addition, declaration by declaration. -/
theorem scopeViolations_sublist (decodes : Bool) (scope : String) (earlier ds : List Declaration) :
    (scopeViolations false scope earlier ds).Sublist
      (scopeViolations decodes scope earlier ds) := by
  induction ds using scope_induction generalizing scope earlier with
  | nil => exact List.Sublist.refl _
  | cons d ds ihd ihds =>
    have hown := (d.faults_sublist decodes earlier).map
      (Rejection.mk (location scope earlier.length d.name))
    have hnested : (nestedViolations false scope d).Sublist
        (nestedViolations decodes scope d) := by
      obtain ⟨name, typeName, access, isList, className, properties, jsonPath, jsonOptional⟩ := d
      cases properties with
      | none => exact List.Sublist.refl _
      | some es =>
        rw [nestedViolations, nestedViolations]
        split
        · exact ihd es rfl _ _
        · exact List.Sublist.refl _
    rw [scopeViolations, scopeViolations]
    exact (hown.append hnested).append (ihds scope (earlier ++ [d]))

end Declaration

namespace Document

/-- The check of a document sees its name, its module, what is said about its use, and what comes of
the check of its declarations. -/
lemma check_congr {target other : Target} {d e : Document} (hname : d.name = e.name)
    (hmodule : d.moduleName = e.moduleName)
    (huse : d.checkUse target.profile = e.checkUse other.profile)
    (hscope : ∀ name, d.properties.map (Declaration.checkScope target.profile.decodes name 0 {}) =
      e.properties.map (Declaration.checkScope other.profile.decodes name 0 {})) :
    d.check target = e.check other := by
  unfold check
  rw [hname, hmodule, huse]
  cases hd : d.properties with
  | none =>
    cases he : e.properties with
    | none => simp only [Option.elim_none, Fallible.error_bind]
    | some es => simp [hd, he] at hscope
  | some ds =>
    cases he : e.properties with
    | none => simp [hd, he] at hscope
    | some es =>
      simp only [hd, he, Option.map_some, Option.some.injEq] at hscope
      simp only [Option.elim_some, Fallible.ok_bind, hscope]

lemma checkUse_bean (d : Document) : d.checkUse Target.bean.profile = .ok () := by
  rw [checkUse_eq_ok_iff]
  simp [Target.profile]

lemma check_qtbean (d : Document) (h : d.noQt = false) : d.check .qtbean = d.check .bean := by
  refine check_congr rfl rfl ?_ fun name => rfl
  rw [checkUse_bean, checkUse_eq_ok_iff]
  simp [Target.profile, h]

/-- Whatever is wrong with a document for value classes is wrong with it for every target, and is met
in the same order. -/
theorem violations_sublist (target : Target) (d : Document) :
    (d.violations .bean).Sublist (d.violations target) := by
  have huse : (d.useFaults Target.bean.profile).Sublist (d.useFaults target.profile) := by
    simp [useFaults, Target.profile, Fault.unless]
  have hroot : (d.rootFaults Target.bean.profile).Sublist (d.rootFaults target.profile) :=
    (List.Sublist.refl _).append huse
  exact (hroot.map _).append (Declaration.scopeViolations_sublist _ _ _ _)

/-- A document that is rejected for value classes is rejected for every target. -/
lemma exists_check_eq_error {d : Document} {r : Rejection} (h : d.check .bean = .error r)
    (target : Target) : ∃ r', d.check target = .error r' := by
  have hhead := ((reports_check .bean d).eq_error_iff r).mp h
  have hmem : r ∈ d.violations target :=
    (d.violations_sublist target).subset (List.mem_of_mem_head? hhead)
  obtain ⟨r', hr'⟩ : ∃ r', (d.violations target).head? = some r' :=
    Option.isSome_iff_exists.mp (by simpa using List.ne_nil_of_mem hmem)
  exact ⟨r', ((reports_check target d).eq_error_iff r').mpr hr'⟩

/-- A document that does not forbid wrappers has the same schema, or the same first fault, for
wrappers as for value classes. One that is accepted for decoders is accepted for value classes, with
the schema that is left without bindings, and one that is rejected for value classes is rejected for
decoders. -/
theorem targets_agree (d : Document) :
    (d.noQt = false → d.check .qtbean = d.check .bean) ∧
    (∀ s, d.check .factory = .ok s → d.check .bean = .ok s.unbound) ∧
    ∀ r, d.check .bean = .error r → ∃ r', d.check .factory = .error r' :=
  ⟨d.check_qtbean, fun _ h => check_bean_of_check h, fun _ h => exists_check_eq_error h .factory⟩

/-- A document with a class whose properties may be bound and accessible, or not. -/
def stationDocument (path : Option String) (access : String) : Document where
  name := some "Station"
  moduleName := some "rail"
  source := some "json"
  properties := some [
    { name := some "platform", typeName := some "class", access := some "r",
      className := some "Platform", jsonPath := some "platform",
      properties := some [
        { name := some "number", typeName := some "int", access := some "c", jsonPath := path },
        { name := some "label", typeName := some "QString", access := some access,
          jsonPath := some "label" }] }]

/-- What decoders demand in addition may be what is reported for them, though the document is
rejected for value classes too. -/
theorem targets_agree_station :
    let good := stationDocument (some "number") "rw"
    let bad := stationDocument none "w"
    (good.noQt = false ∧ good.check .qtbean = good.check .bean) ∧
      (good.check .factory = .ok (good.typed .factory) ∧
        good.check .bean = .ok (good.typed .factory).unbound) ∧
      bad.check .bean = .error ⟨"Station::Platform/label", .unknownAccess "w"⟩ ∧
      bad.check .factory =
        .error ⟨"Station::Platform/number", .missingPropertyField "json_path"⟩ ∧
      ∃ r, bad.check .factory = .error r := by
  intro good bad
  have hgood : good.check .factory = .ok (good.typed .factory) := rfl
  have hbad : bad.check .bean = .error ⟨"Station::Platform/label", .unknownAccess "w"⟩ := rfl
  exact ⟨⟨rfl, (targets_agree good).1 rfl⟩, ⟨hgood, (targets_agree good).2.1 _ hgood⟩, hbad, rfl,
    (targets_agree bad).2.2 _ hbad⟩

end Document

end BeanForge
