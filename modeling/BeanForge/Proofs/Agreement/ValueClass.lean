import BeanForge.Proofs.Agreement.Positions
import BeanForge.ValueClass
/-!
# What a value class offers

The interface of a value class as its other users see it: accessors, the parameters of its value
constructor, and the types that getters return outside of the class. It depends only on what the
models for all targets have in common, so that it can be read off from the class of any target at
the same position.
-/
namespace BeanForge

namespace ValueClass

def Method.parameters? : Method → Option (List SourceText.Parameter)
  | .construct parameters => some parameters
  | _ => none

/-- The parameters of the constructor of a class that takes values. There are none if the class
does not declare such a constructor. -/
def valueParameters (b : ClassModel) : List SourceText.Parameter :=
  ((declared b).findSome? Method.parameters?).getD []

/-- The property that a class has at an index: the constructor takes its value there, and its
getter, which is declared in the class, returns a value of this type outside of the class. -/
structure HasProperty (b : ClassModel) (i : ℕ) (property type getter : String) : Prop where
  parameter : (valueParameters b)[i]?.map (·.name) = some property
  declared : ∃ inside, .getter inside getter ∈ declared b
  defined : ⟨b.nestedName, b.name, .getter type getter, .fetch property⟩ ∈ definitions b

lemma getter_mem_declared {b : ClassModel} {m : Member} (h : m ∈ b.members) :
    .getter m.memberType m.getter ∈ declared b := by
  refine List.mem_append_right _ (List.mem_append_right _ (List.mem_flatMap.mpr ⟨m, h, ?_⟩))
  exact List.mem_cons_self

lemma setter_mem_declared {b : ClassModel} {m : Member} (h : m ∈ b.members) {setter : String}
    (hsetter : m.setter = some setter) : .setter setter (parameter m) ∈ declared b := by
  refine List.mem_append_right _ (List.mem_append_right _ (List.mem_flatMap.mpr ⟨m, h, ?_⟩))
  simp [accessors, hsetter]

lemma getter_mem_definitions {b : ClassModel} {m : Member} (h : m ∈ b.members) :
    ⟨b.nestedName, b.name, .getter m.nestedMemberType m.getter, .fetch m.name⟩ ∈
      definitions b := by
  refine List.mem_append_right _ (List.mem_flatMap.mpr ⟨m, h, ?_⟩)
  exact List.mem_cons_self

/-- All that is defined for a class is defined under the same name. -/
lemma owner_of_mem_definitions {b : ClassModel} {f : Definition} (h : f ∈ definitions b) :
    f.owner = b.nestedName := by
  simp only [definitions, accessorDefinitions, List.mem_append, List.mem_map, List.mem_flatMap,
    List.mem_cons, Option.mem_toList, Option.map_eq_some_iff, List.not_mem_nil, or_false] at h
  rcases h with (⟨_, _, rfl⟩ | rfl | rfl) | ⟨_, _, rfl | ⟨_, _, rfl⟩⟩ <;> rfl

/-- A class takes one parameter for each property. Without properties it has no constructor for
values. -/
lemma valueParameters_eq (b : ClassModel) : valueParameters b = b.members.map parameter := by
  have hnone : (functions Member.memberType b).findSome? Method.parameters? = none := by
    rw [List.findSome?_eq_none_iff]
    intro f hf
    simp only [functions, accessors, List.mem_append, List.mem_cons, List.mem_flatMap,
      Option.mem_toList, Option.map_eq_some_iff, List.not_mem_nil, or_false] at hf
    rcases hf with (rfl | rfl) | ⟨_, _, rfl | ⟨_, _, rfl⟩⟩ <;> rfl
  unfold valueParameters declared constructors
  rw [List.findSome?_append, hnone]
  cases hmembers : b.members with
  | nil => rfl
  | cons m members => rfl

lemma hasProperty_of_getElem? {b : ClassModel} {i : ℕ} {m : Member} (h : b.members[i]? = some m) :
    HasProperty b i m.name m.nestedMemberType m.getter := by
  have hmem : m ∈ b.members := List.mem_of_getElem? h
  refine ⟨?_, ⟨_, getter_mem_declared hmem⟩, getter_mem_definitions hmem⟩
  rw [valueParameters_eq, List.getElem?_map, h]
  rfl

end ValueClass

/-- What the code of a property has for all targets. -/
def Member.common (m : Member) : Member :=
  { m with qt := none, json := none }

/-- The value class has the same members as the class for another target. -/
lemma Property.member_unbound (target : Target) (names : List String) (p : Property) :
    p.unbound.member Target.bean.profile names = (p.member target.profile names).common := by
  obtain ⟨name, typeName, access, isList, nested, binding⟩ := p
  cases target <;> cases nested <;>
    simp [Property.unbound_eq, Property.member, Member.common, Target.profile,
      Property.className?, NestedClass.unbound]

namespace Schema

lemma members_unbound (s : Schema) (target : Target) (x : Scope) :
    (s.unbound.classAt Target.bean.profile x.unbound).members =
      (s.classAt target.profile x).members.map Member.common := by
  simp only [classAt, classModel, Scope.unbound, Property.unboundAll_eq_map, List.map_map]
  refine List.map_congr_left fun p _ => ?_
  exact Property.member_unbound target x.names p

/-- The value class at a position is that of the schema without bindings. -/
lemma at?_root_unbound (s : Schema) (position : List ℕ) :
    (s.unbound.model .bean).root.at? position =
      (s.rootScope.at? position).map fun x =>
        s.unbound.classAt Target.bean.profile x.unbound := by
  have hroot : s.unbound.rootScope = s.rootScope.unbound := rfl
  rw [at?_root_model, hroot, Scope.at?_unbound, Option.map_map]
  rfl

end Schema

end BeanForge
