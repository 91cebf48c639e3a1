import BeanForge.Proofs.Agreement.Wrapper
import BeanForge.Proofs.Declarations
/-!
# Models mirror schemas

A model has the tree of the schema it is made from: the code of a scope has a member for each
declaration and a class for each declaration of a class, in order and at every depth. The names of
a class are made of those that lead to it, the same whether it is the class itself that is named or
a property that refers to it.
-/
namespace BeanForge

/-- A stored type is a list of the declared one exactly if the property is a list, and else this
type itself. -/
def Wraps (container : String) (isList : Bool) (type stored : String) : Prop :=
  (stored = TypeName.listOf container type ↔ isList = true) ∧ (stored = type ↔ isList = false)

structure Declares (target : Target) (p : Property) (m : Member) : Prop where
  name : m.name = p.name
  access : m.access = p.access
  type : m.type = p.className?.getD p.typeName
  nestedType : p.isClass = false → m.nestedType = p.typeName
  memberType : Wraps target.profile.listContainer p.isList m.type m.memberType
  nestedMemberType : Wraps target.profile.listContainer p.isList m.nestedType m.nestedMemberType

structure Refers (target : Target) (m : Member) (c : ClassModel) : Prop where
  nestedType : m.nestedType = c.nestedName
  wrapper : target = .qtbean → m.qt.bind (·.wrapper) = some (c.name ++ "Object")

structure NamedBy (moduleName : String) (target : Target) (names : List String) (c : ClassModel) :
    Prop where
  nestedName : c.nestedName = Text.join "::" names
  ownName : target ≠ .qtbean → names.getLast? = some c.name
  flatName : target = .qtbean → c.name = String.join names
  moduleName : c.moduleName = moduleName

/-- The code of a scope mirrors it, and the code of each class declared in it mirrors the scope of
this class. -/
inductive Mirrors (moduleName : String) (target : Target) : Scope → ClassModel → Prop
  | scope {x : Scope} {c : ClassModel} (named : NamedBy moduleName target x.names c)
    (isConst : c.isConst = true ↔ ∀ p ∈ x.properties, p.access = .const)
    (members : List.Forall₂ (Declares target) x.properties c.members)
    (classes : List.Forall₂ (Mirrors moduleName target) (x.classes.map x.inner) c.classes)
    (references : ∀ i p m, x.properties[i]? = some p → p.isClass = true →
      c.members[i]? = some m → ∃ d, c.classes[x.classIndex i]? = some d ∧ Refers target m d) :
    Mirrors moduleName target x c

lemma wraps_ite (container : String) (isList : Bool) (type : String) :
    Wraps container isList type (if isList then TypeName.listOf container type else type) := by
  have hlonger : TypeName.listOf container type ≠ type := by
    intro h
    have hlength := congrArg String.length h
    simp only [TypeName.listOf, String.length_append] at hlength
    have hmark : "<".length = 1 := rfl
    omega
  cases isList
  · exact ⟨by simpa using hlonger.symm, by simp⟩
  · exact ⟨by simp, by simpa using hlonger⟩

lemma declares_member (target : Target) (names : List String) (p : Property) :
    Declares target p (p.member target.profile names) where
  name := rfl
  access := rfl
  type := rfl
  nestedType h := by
    have hnested : p.nested = none := by simpa [Property.isClass] using h
    simp [Property.member, Property.className?, hnested]
  memberType := wraps_ite _ _ _
  nestedMemberType := wraps_ite _ _ _

namespace Schema

variable (s : Schema) (target : Target)

lemma namedBy_classAt {x : Scope} (hx : x.names ≠ []) :
    NamedBy s.moduleName target x.names (s.classAt target.profile x) := by
  refine ⟨rfl, ?_, ?_, rfl⟩
  · intro htarget
    have hnested : target.profile.classNaming = .nested := by cases target <;> simp_all <;> rfl
    simp [classAt, classModel, hnested, ClassNaming.last, List.getLast?_eq_some_getLast hx,
      List.getLastD_eq_getLast?]
  · rintro rfl
    rfl

/-- A property refers to the class that its declaration opens. -/
lemma refers_classAt {x : Scope} (hx : x.names ≠ []) {p : Property} {n : NestedClass}
    (hn : p.nested = some n) :
    Refers target (p.member target.profile x.names) (s.classAt target.profile (x.inner n)) := by
  refine ⟨s.nestedType_member_of_class target.profile hx hn, ?_⟩
  rintro rfl
  have hclass : p.className? = some n.name := by rw [Property.className?, hn, Option.map_some]
  calc (p.member Target.qtbean.profile x.names).qt.bind (·.wrapper)
      = p.className?.map fun c => flatten x.names c ++ "Object" := rfl
    _ = some (flatten x.names n.name ++ "Object") := by rw [hclass, Option.map_some]
    _ = some (Wrapper.name (s.classAt Target.qtbean.profile (x.inner n))) := by
        rw [Wrapper.name_classAt_inner]

/-- What is left to show for a scope are the classes declared in it. -/
lemma mirrors_of_inner {x : Scope} (hx : x.names ≠ [])
    (h : ∀ n ∈ x.classes, Mirrors s.moduleName target (x.inner n)
      (s.classAt target.profile (x.inner n))) :
    Mirrors s.moduleName target x (s.classAt target.profile x) := by
  refine .scope (s.namedBy_classAt target hx) (by simp [classAt, classModel, Property.allConst])
    ?_ ?_ ?_
  · exact List.forall₂_map_right_iff.mpr
      (List.forall₂_same.mpr fun p _ => declares_member target x.names p)
  · rw [classes_classAt s target.profile hx]
    exact List.forall₂_map_left_iff.mpr
      (List.forall₂_map_right_iff.mpr (List.forall₂_same.mpr h))
  · intro i p m hp hclass hm
    obtain ⟨n, hn⟩ := Option.isSome_iff_exists.mp hclass
    have hmember : x.properties[i]?.map (Property.member target.profile x.names) = some m := by
      rw [← List.getElem?_map]
      exact hm
    rw [hp] at hmember
    obtain rfl := Option.some.inj hmember
    refine ⟨s.classAt target.profile (x.inner n), ?_, ?_⟩
    · rw [classes_classAt s target.profile hx, List.getElem?_map, Scope.classes_classIndex hp hn]
      rfl
    · exact s.refers_classAt target hx hn

lemma mirrors_classAt {x : Scope} (hx : x.names ≠ []) :
    Mirrors s.moduleName target x (s.classAt target.profile x) := by
  -- A declaration brings the scope of its class as a smaller list of declarations, with one name
  -- more around them.
  have hinner : ∀ (ps : List Property) (names : List String), names ≠ [] →
      ∀ n ∈ ps.filterMap (·.nested), Mirrors s.moduleName target ⟨names ++ [n.name], n.properties⟩
        (s.classAt target.profile ⟨names ++ [n.name], n.properties⟩) := by
    intro ps
    induction ps using Property.scope_induction with
    | nil => simp
    | cons p ps ihp ihps =>
      intro names hnames n hn
      rw [List.filterMap_cons] at hn
      cases hp : p.nested with
      | none => exact ihps names hnames n (by simpa [hp] using hn)
      | some c =>
        rw [hp] at hn
        rcases List.mem_cons.mp hn with rfl | hn
        · exact mirrors_of_inner s target (by simp) (ihp n hp _ (by simp))
        · exact ihps names hnames n hn
  exact mirrors_of_inner s target hx (hinner x.properties x.names hx)

/-- A model mirrors its schema at every depth, and has one class for the schema and one for each
declaration of a class. -/
theorem model_mirrors :
    Mirrors s.moduleName target s.rootScope (s.model target).root ∧
      (s.model target).classCount = 1 + s.declarations.countP Property.isClass := by
  constructor
  · rw [root_model]
    exact s.mirrors_classAt target (by simp [rootScope])
  · rw [Model.classCount, ClassModel.count_eq_length_postorder, postorder_model, List.length_map,
      scopes, List.length_append, nestedScopes, Property.length_scopesBelow, Nat.add_comm]
    rfl

end Schema

end BeanForge
