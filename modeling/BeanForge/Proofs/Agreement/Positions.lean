import BeanForge.Proofs.Document.Unbound
/-!
# Positions in a declaration tree

A position is the way from the root class to a class, as indices among the classes that each class
on the way declares. The models for all targets have classes at the positions at which the schema
has scopes, and nowhere else.
-/
namespace BeanForge

/-- The class at a position below a class. -/
def ClassModel.at? : ClassModel → List ℕ → Option ClassModel
  | c, [] => some c
  | c, i :: position => c.classes[i]?.bind fun d => d.at? position

namespace ClassModel

/-- Induction over classes: what goes over to a class from those that it declares holds of all. -/
@[elab_as_elim]
theorem class_induction {motive : ClassModel → Prop}
    (step : ∀ c, (∀ d ∈ c.classes, motive d) → motive c) (c : ClassModel) : motive c := by
  refine postorder.induct motive (fun classes => ∀ d ∈ classes, motive d) ?_ ?_ ?_ c
  · exact fun _ _ _ _ _ _ _ _ hclasses => step _ hclasses
  · simp
  · exact fun _ _ hd hds => List.forall_mem_cons.mpr ⟨hd, hds⟩

lemma mem_postorderAll_iff {d : ClassModel} {classes : List ClassModel} :
    d ∈ postorderAll classes ↔ ∃ c ∈ classes, d ∈ c.postorder := by
  rw [postorderAll_eq_flatMap, List.mem_flatMap]

/-- What stands at a position is among the classes that are rendered. -/
lemma mem_postorder_of_at? {c d : ClassModel} {position : List ℕ}
    (h : c.at? position = some d) : d ∈ c.postorder := by
  induction position generalizing c with
  | nil =>
    rw [postorder_eq, Option.some.inj h]
    simp
  | cons i position ih =>
    obtain ⟨e, he, hd⟩ := Option.bind_eq_some_iff.mp h
    rw [postorder_eq]
    exact List.mem_append_left _
      (mem_postorderAll_iff.mpr ⟨e, List.mem_of_getElem? he, ih hd⟩)

lemma mem_nested_of_at? {c d : ClassModel} {i : ℕ} {position : List ℕ}
    (h : c.at? (i :: position) = some d) : d ∈ c.nested := by
  obtain ⟨e, he, hd⟩ := Option.bind_eq_some_iff.mp h
  exact mem_postorderAll_iff.mpr ⟨e, List.mem_of_getElem? he, mem_postorder_of_at? hd⟩

/-- The classes that are rendered are those that stand at some position. -/
theorem mem_postorder_iff {c d : ClassModel} :
    d ∈ c.postorder ↔ ∃ position, c.at? position = some d := by
  refine ⟨fun h => ?_, fun ⟨_, h⟩ => mem_postorder_of_at? h⟩
  induction c using class_induction with
  | step c ih =>
    rw [postorder_eq, List.mem_append, List.mem_singleton] at h
    rcases h with h | rfl
    · obtain ⟨e, he, hd⟩ := mem_postorderAll_iff.mp h
      obtain ⟨i, hi⟩ := List.mem_iff_getElem?.mp he
      obtain ⟨position, hposition⟩ := ih e he hd
      exact ⟨i :: position, Option.bind_eq_some_iff.mpr ⟨e, hi, hposition⟩⟩
    · exact ⟨[], rfl⟩

/-- The nested classes are those that stand further down than the class itself. -/
theorem mem_nested_iff {c d : ClassModel} :
    d ∈ c.nested ↔ ∃ i position, c.at? (i :: position) = some d := by
  refine ⟨fun h => ?_, fun ⟨_, _, h⟩ => mem_nested_of_at? h⟩
  obtain ⟨e, he, hd⟩ := mem_postorderAll_iff.mp h
  obtain ⟨i, hi⟩ := List.mem_iff_getElem?.mp he
  obtain ⟨position, hposition⟩ := mem_postorder_iff.mp hd
  exact ⟨i, position, Option.bind_eq_some_iff.mpr ⟨e, hi, hposition⟩⟩

end ClassModel

namespace Scope

/-- The classes that are declared in a scope. -/
def classes (x : Scope) : List NestedClass :=
  x.properties.filterMap (·.nested)

/-- The scope at a position below a scope. -/
def at? : Scope → List ℕ → Option Scope
  | x, [] => some x
  | x, i :: position => x.classes[i]?.bind fun c => (x.inner c).at? position

/-- The index of the class of a property among the classes of its scope. -/
def classIndex (x : Scope) (i : ℕ) : ℕ :=
  ((x.properties.take i).filterMap (·.nested)).length

/-- The class of a property stands behind the classes of the properties before it. -/
lemma classes_classIndex {x : Scope} {i : ℕ} {p : Property} (hp : x.properties[i]? = some p)
    {c : NestedClass} (hc : p.nested = some c) : x.classes[x.classIndex i]? = some c := by
  obtain ⟨hi, rfl⟩ := List.getElem?_eq_some_iff.mp hp
  have hsplit : x.classes = (x.properties.take i).filterMap (·.nested) ++
      c :: (x.properties.drop (i + 1)).filterMap (·.nested) := by
    rw [classes]
    conv_lhs => rw [← List.take_append_drop i x.properties, List.drop_eq_getElem_cons hi]
    rw [List.filterMap_append, List.filterMap_cons, hc]
  rw [hsplit, classIndex, List.getElem?_append_right (Nat.le_refl _), Nat.sub_self]
  rfl

lemma mem_of_getElem?_classes {x : Scope} {i : ℕ} {c : NestedClass} (h : x.classes[i]? = some c) :
    ∃ p ∈ x.properties, p.nested = some c :=
  List.mem_filterMap.mp (List.mem_of_getElem? h)

lemma classes_unbound (x : Scope) : x.unbound.classes = x.classes.map NestedClass.unbound := by
  simp only [classes, unbound, Property.unboundAll_eq_map, List.filterMap_map, List.map_filterMap]
  congr 1
  funext p
  simp [Property.unbound_eq]

/-- Bindings do not matter for where classes stand. -/
lemma at?_unbound (x : Scope) (position : List ℕ) :
    x.unbound.at? position = (x.at? position).map unbound := by
  induction position generalizing x with
  | nil => rfl
  | cons i position ih =>
    rw [at?, at?, classes_unbound, List.getElem?_map]
    cases x.classes[i]? with
    | none => rfl
    | some c => exact ih (x.inner c)

end Scope

namespace Schema

lemma mem_scopes_of_at? (s : Schema) {x y : Scope} (hx : x ∈ s.scopes) {position : List ℕ}
    (h : x.at? position = some y) : y ∈ s.scopes := by
  induction position generalizing x with
  | nil => exact Option.some.inj h ▸ hx
  | cons i position ih =>
    obtain ⟨c, hc, hy⟩ := Option.bind_eq_some_iff.mp h
    obtain ⟨p, hp, hnested⟩ := Scope.mem_of_getElem?_classes hc
    exact ih (List.mem_append_left _ (s.inner_mem_nestedScopes hx hp hnested)) hy

lemma classes_classAt (s : Schema) (profile : Profile) {x : Scope} (hx : x.names ≠ []) :
    (s.classAt profile x).classes = x.classes.map fun c => s.classAt profile (x.inner c) :=
  nestedClasses_eq s profile hx x.properties

lemma at?_classAt (s : Schema) (profile : Profile) {x : Scope} (hx : x.names ≠ [])
    (position : List ℕ) :
    (s.classAt profile x).at? position = (x.at? position).map (s.classAt profile) := by
  induction position generalizing x with
  | nil => rfl
  | cons i position ih =>
    rw [ClassModel.at?, Scope.at?, classes_classAt s profile hx, List.getElem?_map]
    cases x.classes[i]? with
    | none => rfl
    | some c => exact @ih (x.inner c) (by simp [Scope.inner])

/-- The class of a model at a position is that of the scope at the same position. -/
theorem at?_root_model (s : Schema) (target : Target) (position : List ℕ) :
    (s.model target).root.at? position =
      (s.rootScope.at? position).map (s.classAt target.profile) := by
  rw [root_model]
  exact at?_classAt s target.profile (by simp [rootScope]) position

end Schema

end BeanForge
