import BeanForge.Proofs.Document.Scopes
/-!
# What value classes need of a document

Value classes need neither bindings nor wrappers, so that a document that is accepted for any
target is accepted for them too, and yields the same schema but for the bindings.
-/
namespace BeanForge

namespace Property

mutual

/-- A property without the bindings in it. -/
def unbound : Property → Property
  | ⟨name, typeName, access, isList, some ⟨c, ps⟩, _⟩ =>
    ⟨name, typeName, access, isList, some ⟨c, unboundAll ps⟩, none⟩
  | ⟨name, typeName, access, isList, none, _⟩ => ⟨name, typeName, access, isList, none, none⟩

def unboundAll : List Property → List Property
  | [] => []
  | p :: ps => p.unbound :: unboundAll ps

end

lemma unboundAll_eq_map (ps : List Property) : unboundAll ps = ps.map unbound := by
  induction ps with
  | nil => rfl
  | cons p ps ih => rw [unboundAll, ih, List.map_cons]

end Property

def NestedClass.unbound (c : NestedClass) : NestedClass :=
  ⟨c.name, Property.unboundAll c.properties⟩

def Scope.unbound (x : Scope) : Scope :=
  ⟨x.names, Property.unboundAll x.properties⟩

def Schema.unbound (s : Schema) : Schema :=
  ⟨s.name, s.moduleName, Property.unboundAll s.properties⟩

lemma Property.unbound_eq (p : Property) :
    p.unbound =
      ⟨p.name, p.typeName, p.access, p.isList, p.nested.map NestedClass.unbound, none⟩ := by
  obtain ⟨_, _, _, _, _ | ⟨_, _⟩, _⟩ := p <;> rfl

namespace Declaration

lemma complete_false {decodes : Bool} {d : Declaration} (h : d.Complete decodes) :
    d.Complete false :=
  ⟨h.1, h.2.1, h.2.2.1, by simp⟩

lemma allWellFormed_false {decodes : Bool} {ds : List Declaration}
    (h : ∀ d ∈ ds, d.WellFormed decodes) : ∀ d ∈ ds, d.WellFormed false := by
  induction ds using scope_induction with
  | nil => simp
  | cons d ds ihd ihds =>
    obtain ⟨hd, hds⟩ := List.forall_mem_cons.mp h
    rw [List.forall_mem_cons]
    refine ⟨?_, ihds hds⟩
    rw [wellFormed_iff] at hd ⊢
    refine ⟨complete_false hd.1, fun hclass => ?_⟩
    obtain ⟨hname, es, hes, hscope⟩ := hd.2 hclass
    exact ⟨hname, es, hes, hscope.1, ihd es hes hscope.2⟩

/-- Without decoding, a document stands for the same properties without their bindings. -/
lemma unboundAll_typedAll (decodes : Bool) (ds : List Declaration) :
    Property.unboundAll (typedAll decodes ds) = typedAll false ds := by
  induction ds using scope_induction with
  | nil => rfl
  | cons d ds ihd ihds =>
    rw [typedAll, typedAll, Property.unboundAll, ihds]
    congr 1
    obtain ⟨name, typeName, access, isList, className, properties, path, optional⟩ := d
    cases className with
    | none => rfl
    | some c =>
      cases properties with
      | none => rfl
      | some es =>
        rw [Property.unbound_eq, typed, typed]
        by_cases hclass : typeName = some classType
        · simp [hclass, NestedClass.unbound, ihd es rfl, binding?]
        · simp [hclass, binding?]

end Declaration

namespace Document

/-- A document that is accepted for a target is accepted for value classes. -/
theorem check_bean_of_check {target : Target} {d : Document} {s : Schema}
    (h : d.check target = .ok s) : d.check .bean = .ok s.unbound := by
  rw [check_eq_ok_iff_checkScope] at h ⊢
  obtain ⟨hname, hmodule, _, ds, hds, hcheck⟩ := h
  obtain ⟨hscope, _, hproperties⟩ := (Declaration.checkScope_eq_ok_iff _ _ _ _ _ _).mp hcheck
  refine ⟨hname, hmodule, ?_, ds, hds, ?_⟩
  · rw [checkUse_eq_ok_iff]
    simp [Target.profile]
  · rw [Declaration.checkScope_eq_ok_iff]
    refine ⟨⟨hscope.1, Declaration.allWellFormed_false hscope.2⟩, by simp, ?_⟩
    rw [Schema.unbound, hproperties]
    exact Declaration.unboundAll_typedAll _ ds

end Document

end BeanForge
