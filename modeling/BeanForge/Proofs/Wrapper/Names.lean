import BeanForge.Proofs.Agreement.Renderings
import BeanForge.Proofs.ScopeNames
/-!
# Names of wrappers

Wrappers are not nested in each other: each is named by the names of all classes around its class,
run together. A property with a class refers to the wrapper of this class by such a name.
`wrappers_named` says when the name leaves no choice: as long as no two classes have names that run
together to the same text, which `BeginningsApart` excludes one scope at a time.
-/
namespace BeanForge

namespace Wrapper

/-- The names of the wrappers that the header declares, in order. -/
def names (m : Model) : List String :=
  m.root.postorder.map name

/-- A wrapper that has the name by which a property refers to the wrapper of its class. -/
structure Named (m : Model) (p : Member) (w : ClassModel) : Prop where
  mem : w ∈ m.root.postorder
  name : p.qt.bind (·.wrapper) = some (name w)

/-- If no two wrappers share their name, a property refers to one wrapper only. -/
lemma Named.eq {m : Model} (hnodup : (names m).Nodup) {p : Member} {v w : ClassModel}
    (hv : Named m p v) (hw : Named m p w) : v = w := by
  have hsame : Wrapper.name v = Wrapper.name w := Option.some.inj (hv.name.symm.trans hw.name)
  exact List.inj_on_of_nodup_map hnodup hv.mem hw.mem hsame

end Wrapper

namespace Schema

open Wrapper

/-- A wrapper is named by the names that lead to its class. -/
lemma wrapper_names_model (s : Schema) :
    Wrapper.names (s.model .qtbean) =
      (s.scopes.map fun x => Text.join "" x.names).map (· ++ "Object") := by
  simp only [Wrapper.names, postorder_model, List.map_map, Text.join_empty]
  rfl

/-- Wrappers share their name only if the names that lead to their classes run together to the
same text. -/
theorem nodup_wrapper_names_iff (s : Schema) :
    (Wrapper.names (s.model .qtbean)).Nodup ↔
      (s.scopes.map fun x => Text.join "" x.names).Nodup := by
  rw [wrapper_names_model, List.nodup_map_iff]
  exact fun a b h => String.append_left_inj _ |>.mp h

/-- A property with a class refers to the wrapper of this class. -/
lemma named_inner (s : Schema) {x : Scope} (hx : x ∈ s.scopes) {p : Property}
    (hp : p ∈ x.properties) {c : NestedClass} (hc : p.nested = some c) :
    Named (s.model .qtbean) (p.member Target.qtbean.profile x.names)
      (s.classAt Target.qtbean.profile (x.inner c)) := by
  have hinner : x.inner c ∈ s.scopes := List.mem_append_left _ (s.inner_mem_nestedScopes hx hp hc)
  refine ⟨?_, ?_⟩
  · rw [postorder_model]
    exact List.mem_map_of_mem hinner
  · rw [name_classAt_inner]
    simp [Property.member, Target.profile, Property.qtView, Property.className?, hc]

lemma beanType_inner (s : Schema) {x : Scope} (hx : x ∈ s.scopes) {p : Property}
    {c : NestedClass} (hc : p.nested = some c) :
    beanType (s.classAt Target.qtbean.profile (x.inner c)) =
      "::" ++ s.moduleName ++ "::" ++ (p.member Target.qtbean.profile x.names).nestedType := by
  rw [s.nestedType_member_of_class _ (s.names_ne_nil hx) hc]
  rfl

end Schema

namespace Document

open Wrapper

/-- The names of the wrappers of an accepted document are different exactly if the names that lead
to the classes are different when they are run together, and so if in each scope no class name is
empty or the beginning of another. A property with a class refers to a wrapper for the type that
the property has outside of its own class, and to no other wrapper if the names are different. -/
theorem wrappers_named {d : Document} {s : Schema} (h : d.check .qtbean = .ok s) :
    Wrapper.Written (s.model .qtbean) ∧
    ((Wrapper.names (s.model .qtbean)).Nodup ↔
      (s.scopes.map fun x => Text.join "" x.names).Nodup) ∧
    ((∀ x ∈ s.scopes, x.BeginningsApart) → (Wrapper.names (s.model .qtbean)).Nodup) ∧
    ∀ x ∈ s.scopes, ∀ p ∈ x.properties, p.isClass →
      ∃ w, Named (s.model .qtbean) (p.member Target.qtbean.profile x.names) w ∧
        beanType w = "::" ++ s.moduleName ++ "::" ++
          (p.member Target.qtbean.profile x.names).nestedType ∧
        ((Wrapper.names (s.model .qtbean)).Nodup →
          ∀ v, Named (s.model .qtbean) (p.member Target.qtbean.profile x.names) v → v = w) := by
  have hnodup := s.nodup_wrapper_names_iff
  refine ⟨Wrapper.written rfl, hnodup, fun hapart => hnodup.mpr ?_, fun x hx p hp hclass => ?_⟩
  · exact s.nodup_join_scopes fun x hx => (hapart x hx).separated (nodup_classNames h x hx)
  · obtain ⟨c, hc⟩ := Option.isSome_iff_exists.mp hclass
    have hnamed := s.named_inner hx hp hc
    exact ⟨_, hnamed, s.beanType_inner hx hc, fun hdistinct v hv => hv.eq hdistinct hnamed⟩

/-- The three wrappers of a trip have different names, and its route refers to one of them. -/
theorem wrappers_named_trip :
    (∀ x ∈ (tripDocument.typed .qtbean).scopes, x.BeginningsApart) ∧
    (Wrapper.names ((tripDocument.typed .qtbean).model .qtbean)).Nodup ∧
    ∀ x ∈ (tripDocument.typed .qtbean).scopes, ∀ p ∈ x.properties, p.isClass →
      ∃! w, Named ((tripDocument.typed .qtbean).model .qtbean)
        (p.member Target.qtbean.profile x.names) w :=
  have hcheck : tripDocument.check .qtbean = .ok (tripDocument.typed .qtbean) := rfl
  have hapart : ∀ x ∈ (tripDocument.typed .qtbean).scopes, x.BeginningsApart := by decide
  have ⟨_, _, hnodup, hnamed⟩ := wrappers_named hcheck
  ⟨hapart, hnodup hapart, fun x hx p hp hclass =>
    have ⟨w, hw, _, hunique⟩ := hnamed x hx p hp hclass
    ⟨w, hw, hunique (hnodup hapart)⟩⟩

/-- A document in which the names of two classes are split differently between them and the
classes around them. -/
def splitDocument : Document where
  name := some "D"
  moduleName := some "m"
  properties := some [
    { name := some "x", typeName := some "class", access := some "r", className := some "A",
      properties := some [
        { name := some "p", typeName := some "class", access := some "r", className := some "BC",
          properties := some [] }] },
    { name := some "y", typeName := some "class", access := some "r", className := some "AB",
      properties := some [
        { name := some "q", typeName := some "class", access := some "r", className := some "C",
          properties := some [] }] }]

/-- Two wrappers of this document have the same name, though their classes do not. -/
theorem wrappers_splitDocument :
    ∃ s, splitDocument.check .qtbean = .ok s ∧
      Wrapper.names (s.model .qtbean) =
        ["DABCObject", "DAObject", "DABCObject", "DABObject", "DObject"] ∧
      (s.model .qtbean).root.postorder.map beanType =
        ["::m::D::A::BC", "::m::D::A", "::m::D::AB::C", "::m::D::AB", "::m::D"] :=
  ⟨_, rfl, rfl, rfl⟩

end Document

end BeanForge
