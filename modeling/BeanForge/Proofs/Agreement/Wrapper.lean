import BeanForge.Proofs.Agreement.ValueClass
import BeanForge.Wrapper
/-!
# Wrappers and value classes

A wrapper calls only accessors that its value class declares, names the value class as the source
of that class does, and constructs a value from one part for each parameter of the constructor: a
getter of the owned value, or the child wrapper of the class at the position of the property.
-/
namespace BeanForge.Wrapper

/-- The getters that a body calls on the owned value or on the one before. -/
def Body.getters : Body → List String
  | useDefault | showChild _ => []
  | takeOver children => children.map (·.getter)
  | showValue getter | change getter _ _ _ => [getter]
  | collect parts => parts.filterMap fun
    | .value getter => some getter
    | .child _ => none
  | replace children watched => children.map (·.getter) ++ watched.map (·.getter)

/-- The setters that a body calls on the owned value. -/
def Body.setters : Body → List String
  | change _ setter _ _ => [setter]
  | _ => []

/-- The value that a definition constructs from parts, if it does: the function that it is the
body of, the class of the value, and the parts. -/
def Definition.construction? (f : Definition) : Option (Method × String × List Part) :=
  match f.body with
  | .collect parts => some (f.method, f.bean, parts)
  | _ => none

/-- A part that fits the property at an index: it is the property's getter, or the child that
wraps the class of the property. The value of such a child has the type of the property. -/
def PartFits (moduleName : String) (x : Scope) (w b : ClassModel) (i : ℕ) (part : Part) : Prop :=
  ∃ p type getter, x.properties[i]? = some p ∧ ValueClass.HasProperty b i p.name type getter ∧
    match part with
    | .value called => called = getter
    | .child property => property = p.name ∧ ∃ inner,
        w.classes[x.classIndex i]? = some inner ∧
          (name inner ++ " *", property) ∈ childFields w ∧
          ⟨property, name inner, getter⟩ ∈ children w ∧
          beanType inner = "::" ++ moduleName ++ "::" ++ type

/-- The wrapper of a scope that fits the value class of the scope. -/
structure Matches (moduleName : String) (x : Scope) (w b : ClassModel) : Prop where
  getters : ∀ f ∈ definitions w, ∀ getter ∈ f.body.getters,
    ∃ type, .getter type getter ∈ ValueClass.declared b
  setters : ∀ f ∈ definitions w, ∀ setter ∈ f.body.setters,
    ∃ parameter, .setter setter parameter ∈ ValueClass.declared b
  owner : ∀ f ∈ ValueClass.definitions b, f.owner = Text.join "::" x.names
  bean : ∀ f ∈ definitions w, f.bean = "::" ++ moduleName ++ "::" ++ Text.join "::" x.names
  constructs : ∃ parts, (definitions w).filterMap Definition.construction? =
      [(.data, "::" ++ moduleName ++ "::" ++ Text.join "::" x.names, parts)] ∧
    parts.length = (ValueClass.valueParameters b).length ∧
    ∀ i part, parts[i]? = some part → PartFits moduleName x w b i part

lemma setter?_eq_some_iff {m : Member} {s : String} :
    setter? m = some s ↔ isChild m = false ∧ m.setter = some s := by
  cases h : isChild m <;> simp [setter?, h]

/-- The bodies that a wrapper has: those of its accessors, and four that every wrapper has. -/
lemma body_cases {c : ClassModel} {f : Definition} (h : f ∈ definitions c) :
    f.body = .useDefault ∨ f.body = .takeOver (children c) ∨
      (∃ m ∈ c.members, (isChild m ∧ f.body = .showChild m.name) ∨ f.body = .showValue m.getter ∨
        ∃ s, setter? m = some s ∧ f.body = .change m.getter s m.name m.stored) ∨
      f.body = .collect (valueParts c) ∨ f.body = .replace (children c) (watched c) := by
  obtain ⟨⟨method, body⟩, hbody, rfl⟩ := List.mem_map.mp h
  simp only [bodies, accessorBodies, List.mem_append, List.mem_cons, List.mem_flatMap,
    Prod.mk.injEq, Option.mem_toList, Option.map_eq_some_iff, List.not_mem_nil, or_false] at hbody
  rcases hbody with ((⟨_, rfl⟩ | ⟨_, rfl⟩) | ⟨m, hm, ⟨_, rfl⟩ | ⟨s, hs, _, rfl⟩⟩) |
    ⟨_, rfl⟩ | ⟨_, rfl⟩
  · exact .inl rfl
  · exact .inr (.inl rfl)
  · refine .inr (.inr (.inl ⟨m, hm, ?_⟩))
    by_cases hchild : isChild m
    · exact .inl ⟨hchild, if_pos hchild⟩
    · exact .inr (.inl (if_neg hchild))
  · exact .inr (.inr (.inl ⟨m, hm, .inr (.inr ⟨s, hs, rfl⟩)⟩))
  · exact .inr (.inr (.inr (.inl rfl)))
  · exact .inr (.inr (.inr (.inr rfl)))

lemma exists_member_of_children {c : ClassModel} {getter : String}
    (h : getter ∈ (children c).map (·.getter)) : ∃ m ∈ c.members, m.getter = getter := by
  rw [children, List.map_map] at h
  obtain ⟨m, hm, rfl⟩ := List.mem_map.mp h
  exact ⟨m, List.mem_of_mem_filter hm, rfl⟩

/-- A wrapper calls the getters of its properties only. -/
lemma exists_member_of_getter {c : ClassModel} {f : Definition} (h : f ∈ definitions c)
    {getter : String} (hgetter : getter ∈ f.body.getters) : ∃ m ∈ c.members, m.getter = getter := by
  rcases body_cases h with hf | hf | ⟨m, hm, ⟨_, hf⟩ | hf | ⟨s, _, hf⟩⟩ | hf | hf <;>
    rw [hf] at hgetter
  · simp [Body.getters] at hgetter
  · exact exists_member_of_children hgetter
  · simp [Body.getters] at hgetter
  · exact ⟨m, hm, by simpa [Body.getters, eq_comm] using hgetter⟩
  · exact ⟨m, hm, by simpa [Body.getters, eq_comm] using hgetter⟩
  · obtain ⟨part, hpart, hcalled⟩ := List.mem_filterMap.mp hgetter
    obtain ⟨m, hm, rfl⟩ := List.mem_map.mp hpart
    refine ⟨m, hm, ?_⟩
    by_cases hchild : isChild m
    · simp [hchild] at hcalled
    · simpa [hchild] using hcalled
  · rcases List.mem_append.mp hgetter with hchild | hwatched
    · exact exists_member_of_children hchild
    · rw [watched, List.map_map] at hwatched
      obtain ⟨m, hm, rfl⟩ := List.mem_map.mp hwatched
      exact ⟨m, List.mem_of_mem_filter hm, rfl⟩

lemma exists_member_of_setter {c : ClassModel} {f : Definition} (h : f ∈ definitions c)
    {setter : String} (hsetter : setter ∈ f.body.setters) :
    ∃ m ∈ c.members, m.setter = some setter := by
  rcases body_cases h with hf | hf | ⟨m, hm, ⟨_, hf⟩ | hf | ⟨s, hs, hf⟩⟩ | hf | hf <;>
    rw [hf] at hsetter
  any_goals simp [Body.setters] at hsetter
  exact ⟨m, hm, hsetter ▸ (setter?_eq_some_iff.mp hs).2⟩

/-- A wrapper constructs a value in one place only. -/
lemma constructions_eq (c : ClassModel) :
    (definitions c).filterMap Definition.construction? = [(.data, beanType c, valueParts c)] := by
  let construction? : Method × Body → Option (Method × String × List Part) :=
    fun p => Definition.construction? ⟨name c, beanType c, p.1, p.2⟩
  have haccessors : (c.members.flatMap accessorBodies).filterMap construction? = [] := by
    rw [List.filterMap_eq_nil_iff]
    intro p hp
    obtain ⟨m, _, hp⟩ := List.mem_flatMap.mp hp
    simp only [accessorBodies, List.mem_cons, Option.mem_toList, Option.map_eq_some_iff] at hp
    rcases hp with rfl | ⟨s, _, rfl⟩
    · by_cases hchild : isChild m <;> simp [construction?, hchild, Definition.construction?]
    · rfl
  have hbodies : (definitions c).filterMap Definition.construction? =
      (bodies c).filterMap construction? := by
    rw [definitions, List.filterMap_map]
    rfl
  rw [hbodies, bodies, List.filterMap_append, List.filterMap_append, haccessors]
  rfl

lemma kind_member_eq_list_iff (profile : Profile) (names : List String) (p : Property) :
    (p.member profile names).kind = .list ↔ p.isList := by
  unfold Property.member
  by_cases hlist : p.isList
  · simp [hlist]
  · by_cases hsimple : TypeName.isSimple p.typeName <;> simp [hlist, hsimple]

/-- Single classes are held as children, and nothing else is. -/
lemma isChild_member_iff (names : List String) (p : Property) :
    isChild (p.member Target.qtbean.profile names) ↔ p.isList = false ∧ p.nested.isSome := by
  have hkind := kind_member_eq_list_iff Target.qtbean.profile names p
  have hview : (p.member Target.qtbean.profile names).qt = some (p.qtView names) := rfl
  rw [isChild, hview, Bool.and_eq_true, bne_iff_ne, ne_eq, hkind]
  simp [Property.qtView, Property.className?]

lemma shownType_of_class {names : List String} {p : Property} (hlist : p.isList = false)
    {c : NestedClass} (hc : p.nested = some c) :
    shownType (p.member Target.qtbean.profile names) =
      flatten names c.name ++ "Object" ++ " *" := by
  have hkind := kind_member_eq_list_iff Target.qtbean.profile names p
  have hview : (p.member Target.qtbean.profile names).qt = some (p.qtView names) := rfl
  have hsingle : (p.member Target.qtbean.profile names).kind ≠ .list := by
    rw [ne_eq, hkind, hlist]
    simp
  rw [shownType, hview]
  simp [hsingle, Property.qtView, Property.className?, hc]

lemma wrapper_of_class {names : List String} {p : Property} {c : NestedClass}
    (hc : p.nested = some c) :
    ((p.member Target.qtbean.profile names).qt.bind (·.wrapper)).getD "" =
      flatten names c.name ++ "Object" := by
  simp [Property.member, Target.profile, Property.qtView, Property.className?, hc]

lemma childFields_mem {c : ClassModel} {m : Member} (hm : m ∈ c.members) (hchild : isChild m) :
    (shownType m, m.name) ∈ childFields c :=
  List.mem_map_of_mem (List.mem_filter.mpr ⟨hm, hchild⟩)

lemma children_mem {c : ClassModel} {m : Member} (hm : m ∈ c.members) (hchild : isChild m) :
    ⟨m.name, (m.qt.bind (·.wrapper)).getD "", m.getter⟩ ∈ children c :=
  List.mem_map_of_mem (List.mem_filter.mpr ⟨hm, hchild⟩)

/-- The wrapper that a property of a class refers to is that of the class at its position. -/
lemma name_classAt_inner (s : Schema) (x : Scope) (c : NestedClass) :
    name (s.classAt Target.qtbean.profile (x.inner c)) = flatten x.names c.name ++ "Object" := by
  have happly := Schema.naming_apply_eq_last .flattened x.names c.name
  rw [ClassNaming.apply] at happly
  rw [happly]
  rfl

/-- The part for a property fits it, if the value class is made for the same scope. -/
lemma partFits_classAt (s : Schema) {x : Scope} (hx : x.names ≠ []) {b : ClassModel} {i : ℕ}
    {p : Property} (hp : x.properties[i]? = some p) {m : Member}
    (hm : m = p.member Target.qtbean.profile x.names)
    (hb : ValueClass.HasProperty b i p.name m.nestedMemberType m.getter) :
    PartFits s.moduleName x (s.classAt Target.qtbean.profile x) b i
      (if isChild m then .child m.name else .value m.getter) := by
  refine ⟨p, m.nestedMemberType, m.getter, hp, hb, ?_⟩
  by_cases hchild : isChild m
  · rw [if_pos hchild]
    have hmember : m ∈ (s.classAt Target.qtbean.profile x).members :=
      hm ▸ List.mem_map_of_mem (List.mem_of_getElem? hp)
    have hfield := childFields_mem hmember hchild
    have hcreated := children_mem hmember hchild
    subst hm
    obtain ⟨hlist, hclass⟩ := (isChild_member_iff x.names p).mp hchild
    obtain ⟨c, hc⟩ := Option.isSome_iff_exists.mp hclass
    refine ⟨rfl, s.classAt Target.qtbean.profile (x.inner c), ?_, ?_, ?_, ?_⟩
    · rw [s.classes_classAt _ hx, List.getElem?_map, Scope.classes_classIndex hp hc]
      rfl
    · rw [name_classAt_inner, ← shownType_of_class hlist hc]
      exact hfield
    · rw [name_classAt_inner, ← wrapper_of_class hc]
      exact hcreated
    · have htype : (p.member Target.qtbean.profile x.names).nestedMemberType =
          Text.join "::" (x.inner c).names := by
        simp [Property.member, Property.className?, hc, hlist, Schema.qualify_eq_join hx,
          Scope.inner]
      rw [htype]
      rfl
  · rw [if_neg hchild]

/-- The wrapper of a scope fits the value class of the same scope. -/
theorem matches_classAt (s : Schema) {x : Scope} (hx : x.names ≠ []) :
    Matches s.moduleName x (s.classAt Target.qtbean.profile x)
      (s.unbound.classAt Target.bean.profile x.unbound) := by
  have hmembers := s.members_unbound .qtbean x
  have hcommon : ∀ m ∈ (s.classAt Target.qtbean.profile x).members,
      m.common ∈ (s.unbound.classAt Target.bean.profile x.unbound).members := by
    intro m hm
    rw [hmembers]
    exact List.mem_map_of_mem hm
  refine ⟨?_, ?_, ?_, ?_, valueParts (s.classAt Target.qtbean.profile x), ?_, ?_, ?_⟩
  · intro f hf getter hgetter
    obtain ⟨m, hm, rfl⟩ := exists_member_of_getter hf hgetter
    have hdeclared := ValueClass.getter_mem_declared (hcommon m hm)
    exact ⟨_, hdeclared⟩
  · intro f hf setter hsetter
    obtain ⟨m, hm, hs⟩ := exists_member_of_setter hf hsetter
    have hdeclared := ValueClass.setter_mem_declared (hcommon m hm) hs
    exact ⟨_, hdeclared⟩
  · intro f hf
    rw [ValueClass.owner_of_mem_definitions hf]
    rfl
  · intro f hf
    obtain ⟨_, _, rfl⟩ := List.mem_map.mp hf
    rfl
  · rw [constructions_eq]
    rfl
  · rw [ValueClass.valueParameters_eq, hmembers]
    simp [valueParts]
  · intro i part hpart
    rw [valueParts, List.getElem?_map] at hpart
    obtain ⟨m, hm, rfl⟩ := Option.map_eq_some_iff.mp hpart
    have hm' := hm
    rw [Schema.classAt, Schema.classModel, List.getElem?_map] at hm'
    obtain ⟨p, hp, hpm⟩ := Option.map_eq_some_iff.mp hm'
    have hcommon : (s.unbound.classAt Target.bean.profile x.unbound).members[i]? =
        some m.common := by
      rw [hmembers, List.getElem?_map, hm]
      rfl
    have hproperty := ValueClass.hasProperty_of_getElem? hcommon
    refine partFits_classAt s hx hp hpm.symm ?_
    rw [← hpm] at hproperty ⊢
    exact hproperty

end BeanForge.Wrapper
