import BeanForge.Proofs.Document.Acceptance
import BeanForge.Proofs.Scopes
/-!
# Scopes of accepted documents

Every scope of the schema of an accepted document comes from a well-formed scope of declarations,
so that the properties of a scope have different names and, if values are decoded, each is bound
to a path and has a type that JSON values convert to.
-/
namespace BeanForge

/-- What is known of the properties of a scope once the document is checked. -/
structure Scope.Checked (decodes : Bool) (x : Scope) : Prop where
  names : (x.properties.map (·.name)).Nodup
  bound : decodes → ∀ p ∈ x.properties, ∃ b, p.binding = some b
  convertible : decodes → ∀ p ∈ x.properties, (TypeName.conversion? p.typeName).isSome

namespace Declaration

lemma typedAll_eq_map (decodes : Bool) (ds : List Declaration) :
    typedAll decodes ds = ds.map (typed decodes) := by
  induction ds with
  | nil => rfl
  | cons d ds ih => rw [typedAll, ih, List.map_cons]

lemma typed_name (decodes : Bool) (d : Declaration) : (d.typed decodes).name = d.name.getD "" := by
  obtain ⟨_, _, _, _, _ | _, _ | _, _, _⟩ := d <;> rfl

lemma typed_typeName (decodes : Bool) (d : Declaration) :
    (d.typed decodes).typeName = d.typeName.getD "" := by
  obtain ⟨_, _, _, _, _ | _, _ | _, _, _⟩ := d <;> rfl

lemma typed_binding (decodes : Bool) (d : Declaration) :
    (d.typed decodes).binding = binding? decodes d.jsonPath d.jsonOptional := by
  obtain ⟨_, _, _, _, _ | _, _ | _, _, _⟩ := d <;> rfl

/-- The class of a property comes from a scope of declarations that is well formed too. -/
lemma exists_scope_of_nested {decodes : Bool} {d : Declaration} (h : d.WellFormed decodes)
    {c : NestedClass} (hc : (d.typed decodes).nested = some c) :
    ∃ ds, d.properties = some ds ∧ WellFormedScope decodes ds ∧
      c.properties = typedAll decodes ds := by
  by_cases hclass : d.declaresClass
  · obtain ⟨hname, ds, hds, hscope⟩ := ((wellFormed_iff decodes d).mp h).2 hclass
    obtain ⟨name, hname⟩ := Option.isSome_iff_exists.mp hname
    rw [typed_of_class decodes hclass hname hds] at hc
    cases hc
    exact ⟨ds, hds, hscope, rfl⟩
  · rw [typed_of_plain decodes hclass] at hc
    cases hc

/-- A well-formed declaration stands for a property with a class of the same name, if it declares
one. -/
lemma className_typed {decodes : Bool} {d : Declaration} (h : d.WellFormed decodes) :
    ((d.typed decodes).nested.map (·.name)) = if d.declaresClass then d.className else none := by
  by_cases hclass : d.declaresClass
  · obtain ⟨hname, ds, hds, _⟩ := ((wellFormed_iff decodes d).mp h).2 hclass
    obtain ⟨c, hc⟩ := Option.isSome_iff_exists.mp hname
    rw [typed_of_class decodes hclass hc hds, if_pos hclass, hc]
    rfl
  · rw [typed_of_plain decodes hclass, if_neg hclass]
    rfl

/-- The classes of well-formed declarations, in order. -/
lemma classNames_typedAll {decodes : Bool} {ds : List Declaration}
    (h : ∀ d ∈ ds, d.WellFormed decodes) :
    (((typedAll decodes ds).filterMap (·.nested)).map (·.name)).map some =
      (ds.filter declaresClass).map (·.className) := by
  induction ds with
  | nil => rfl
  | cons d ds ih =>
    obtain ⟨hd, hds⟩ := List.forall_mem_cons.mp h
    have hname := className_typed hd
    have hrest := ih hds
    rw [typedAll, List.filterMap_cons]
    by_cases hclass : d.declaresClass
    · obtain ⟨hsome, _⟩ := ((wellFormed_iff decodes d).mp hd).2 hclass
      obtain ⟨c, hc⟩ := Option.isSome_iff_exists.mp hsome
      rw [if_pos hclass, hc] at hname
      obtain ⟨n, hn, rfl⟩ := Option.map_eq_some_iff.mp hname
      rw [List.filter_cons_of_pos hclass, List.map_cons, ← hrest, hc, hn]
      rfl
    · rw [if_neg hclass, Option.map_eq_none_iff] at hname
      rw [List.filter_cons_of_neg hclass, ← hrest, hname]

lemma nodup_classNames_of_wellFormed {decodes : Bool} {ds : List Declaration}
    (h : WellFormedScope decodes ds) :
    (((typedAll decodes ds).filterMap (·.nested)).map (·.name)).Nodup := by
  have hdistinct := h.1.2
  rw [← classNames_typedAll h.2] at hdistinct
  exact hdistinct.of_map

lemma checked_of_wellFormed {decodes : Bool} {ds : List Declaration}
    (h : WellFormedScope decodes ds) (names : List String) :
    Scope.Checked decodes ⟨names, typedAll decodes ds⟩ := by
  have hcomplete : ∀ d ∈ ds, d.Complete decodes := by
    intro d hd
    exact ((wellFormed_iff decodes d).mp (h.2 d hd)).1
  rw [typedAll_eq_map]
  refine ⟨?_, ?_, ?_⟩
  · have hdistinct := h.1.1
    have hnames : ds.map (·.name) = (ds.map fun d => (d.typed decodes).name).map some := by
      rw [List.map_map]
      refine List.map_congr_left fun d hd => ?_
      obtain ⟨n, hn⟩ := Option.isSome_iff_exists.mp (hcomplete d hd).1
      simp [typed_name, hn]
    rw [hnames] at hdistinct
    simpa [Function.comp_def] using hdistinct.of_map
  · intro hdecodes p hp
    obtain ⟨d, hd, rfl⟩ := List.mem_map.mp hp
    obtain ⟨⟨path, hpath, _⟩, _⟩ := (hcomplete d hd).2.2.2 hdecodes
    exact ⟨⟨path, d.jsonOptional⟩, by simp [typed_binding, binding?, hdecodes, hpath]⟩
  · intro hdecodes p hp
    obtain ⟨d, hd, rfl⟩ := List.mem_map.mp hp
    obtain ⟨_, type, htype, hconversion⟩ := (hcomplete d hd).2.2.2 hdecodes
    simpa [typed_typeName, htype] using hconversion

end Declaration

namespace Document

/-- The scopes of an accepted document come from well-formed scopes of declarations. -/
theorem wellFormedScope_of_check {target : Target} {d : Document} {s : Schema}
    (h : d.check target = .ok s) : ∀ x ∈ s.scopes, ∃ ds,
      Declaration.WellFormedScope target.profile.decodes ds ∧
        x.properties = Declaration.typedAll target.profile.decodes ds := by
  obtain ⟨_, _, _, ds, _, hcheck⟩ := (check_eq_ok_iff_checkScope target d s).mp h
  obtain ⟨hscope, _, hproperties⟩ := (Declaration.checkScope_eq_ok_iff _ _ _ _ _ _).mp hcheck
  refine Schema.forall_scopes s ⟨ds, hscope, hproperties⟩ ?_
  rintro x ⟨es, hes, hx⟩ p hp c hc
  rw [hx, Declaration.typedAll_eq_map] at hp
  obtain ⟨e, he, rfl⟩ := List.mem_map.mp hp
  obtain ⟨inner, _, hinner, hc⟩ := Declaration.exists_scope_of_nested (hes.2 e he) hc
  exact ⟨inner, hinner, hc⟩

/-- What the check of a document promises of each scope. -/
theorem checked_scopes {target : Target} {d : Document} {s : Schema}
    (h : d.check target = .ok s) : ∀ x ∈ s.scopes, x.Checked target.profile.decodes := by
  rintro ⟨names, properties⟩ hx
  obtain ⟨ds, hds, rfl⟩ := wellFormedScope_of_check h _ hx
  exact Declaration.checked_of_wellFormed hds names

/-- A property that has a class is declared as one. -/
theorem typeName_of_class {target : Target} {d : Document} {s : Schema}
    (h : d.check target = .ok s) :
    ∀ x ∈ s.scopes, ∀ p ∈ x.properties, p.nested.isSome → p.typeName = classType := by
  intro x hx p hp hclass
  obtain ⟨ds, hds, hproperties⟩ := wellFormedScope_of_check h x hx
  rw [hproperties, Declaration.typedAll_eq_map] at hp
  obtain ⟨e, he, rfl⟩ := List.mem_map.mp hp
  have hname := Declaration.className_typed (hds.2 e he)
  by_cases hdeclares : e.declaresClass
  · rw [Declaration.typed_typeName, e.declaresClass_iff.mp hdeclares, Option.getD_some]
  · rw [if_neg hdeclares, Option.map_eq_none_iff] at hname
    simp [hname] at hclass

/-- The classes declared in a scope of an accepted document have different names. -/
theorem nodup_classNames {target : Target} {d : Document} {s : Schema}
    (h : d.check target = .ok s) :
    ∀ x ∈ s.scopes, ((x.properties.filterMap (·.nested)).map (·.name)).Nodup := by
  rintro ⟨names, properties⟩ hx
  obtain ⟨ds, hds, rfl⟩ := wellFormedScope_of_check h _ hx
  exact Declaration.nodup_classNames_of_wellFormed hds

end Document

end BeanForge
