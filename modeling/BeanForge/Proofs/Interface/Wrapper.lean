import BeanForge.Proofs.Interface.Prototype
import BeanForge.Proofs.Rendering
import BeanForge.Proofs.Wrapper.Names
/-!
# Headers and sources of wrappers

The wrappers made from a schema are closed: what a header declares of a wrapper is what the source
defines, and whatever a wrapper refers to is there, in the wrapper itself or, for the wrappers of
its children, in one that is declared before. Nothing is asked of the schema: a property may declare
a class whatever its type is called.
-/
namespace BeanForge

namespace Wrapper

open SourceText Text

/-- The prototype of a member function of the wrapper of a class. -/
def Method.prototype (wrapper bean : String) : Method → Prototype
  | .construct => ⟨none, wrapper, [⟨"QObject *parent", some "nullptr"⟩], false⟩
  | .adopt =>
    ⟨none, wrapper, [⟨bean ++ " &&data", none⟩, ⟨"QObject *parent", some "nullptr"⟩], false⟩
  | .getter result name => ⟨some result, name, [], true⟩
  | .setter name p => ⟨some "void", name, [⟨p.text, none⟩], false⟩
  | .data => ⟨some bean, "data", [], true⟩
  | .update => ⟨some "void", "update", [⟨bean ++ " &&data", none⟩], false⟩

lemma declarationCode_eq (wrapper bean : String) (f : Method) :
    f.declarationCode wrapper bean = ["    " ++ (f.prototype wrapper bean).declared ++ ";"] := by
  cases f <;>
    simp [Method.declarationCode, Method.prototype, Prototype.declared, Prototype.text,
      Formal.declared, Parameter.text, ← String.toList_inj]

lemma definitionCode_eq (wrapper bean : String) (f : Method) :
    f.definitionCode wrapper bean = [(f.prototype wrapper bean).defined wrapper] := by
  cases f <;>
    simp [Method.definitionCode, Method.prototype, Prototype.defined, Prototype.text,
      Parameter.text, ← String.toList_inj]

/-- A definition of a declared function of a class: both are written from the same prototype. -/
structure Defines (c : ClassModel) (f : Method) (d : Definition) : Prop where
  owner : d.wrapper = name c
  method : d.method = f
  declared : f.declarationCode (name c) (beanType c) =
    ["    " ++ (f.prototype (name c) (beanType c)).declared ++ ";"]
  defined : d.code =
    (f.prototype (name c) (beanType c)).defined (name c) :: d.body.code (name c) (beanType c)

/-- The properties whose signal a body emits. -/
def Body.emitted : Body → List String
  | change _ _ property _ => [property]
  | replace _ watched => watched.map (·.property)
  | _ => []

/-- The properties whose child a body uses. -/
def Body.usedChildren : Body → List String
  | takeOver children => children.map (·.property)
  | showChild property => [property]
  | collect parts => parts.filterMap fun
    | .child property => some property
    | .value _ => none
  | replace children _ => children.map (·.property)
  | _ => []

/-- A property that is exposed with functions and a signal that the wrapper declares. -/
structure Exposed.Backed (c : ClassModel) (e : Exposed) : Prop where
  read : .getter e.type e.read ∈ declared c
  write : ∀ setter ∈ e.write, ∃ parameter, .setter setter parameter ∈ declared c
  notify : ∀ property ∈ e.notify, property ∈ signals c

/-- A child whose type is that of a wrapper declared before, and whose wrapper takes over and is
updated by values of the type that the property of the child has outside of its class. -/
structure Child.Available (before : List ClassModel) (c : ClassModel) (child : Child) : Prop where
  field : (child.wrapper ++ " *", child.property) ∈ childFields c
  shown : .getter (child.wrapper ++ " *") child.getter ∈ declared c
  wrapper : ∃ w ∈ before, name w = child.wrapper ∧
    ∃ m ∈ c.members, m.name = child.property ∧ ∀ f ∈ [Method.adopt, .update], f ∈ declared w ∧
      (f.prototype (name w) (beanType w)).parameters.head? =
        some ⟨"::" ++ c.moduleName ++ "::" ++ m.nestedType ++ " &&data", none⟩

/-- A wrapper that is the same in header and source and refers only to what is declared, after some
other wrappers. -/
structure Closed (before : List ClassModel) (c : ClassModel) : Prop where
  defines : List.Forall₂ (Defines c) (declared c) (definitions c)
  exposed : ∀ e ∈ exposed c, e.Backed c
  emitted : ∀ d ∈ definitions c, ∀ property ∈ d.body.emitted, property ∈ signals c
  usedChildren : ∀ d ∈ definitions c, ∀ property ∈ d.body.usedChildren,
    property ∈ (childFields c).map Prod.snd
  childFields : childFields c = (children c).map fun child => (child.wrapper ++ " *", child.property)
  children : ∀ child ∈ children c, child.Available before c

lemma methods_accessorBodies (m : Member) : (accessorBodies m).map Prod.fst = accessors m := by
  cases h : setter? m <;> simp [accessorBodies, accessors, h]

lemma methods_bodies (c : ClassModel) : (bodies c).map Prod.fst = declared c := by
  simp [bodies, declared, List.map_flatMap, methods_accessorBodies]

/-- The definitions of a wrapper are those of its declared functions, one by one. -/
theorem defines_declared (c : ClassModel) :
    List.Forall₂ (Defines c) (declared c) (definitions c) := by
  rw [← methods_bodies, definitions, List.forall₂_map_left_iff, List.forall₂_map_right_iff,
    List.forall₂_same]
  exact fun _ _ => ⟨rfl, rfl, declarationCode_eq _ _ _, congrArg (· ++ _) (definitionCode_eq ..)⟩

lemma getter_mem_declared {c : ClassModel} {m : Member} (hm : m ∈ c.members) :
    .getter (shownType m) m.getter ∈ declared c := by
  refine List.mem_append_left _ (List.mem_append_right _ (List.mem_flatMap.mpr ⟨m, hm, ?_⟩))
  exact List.mem_cons_self

lemma setter_mem_declared {c : ClassModel} {m : Member} (hm : m ∈ c.members) {s : String}
    (hs : setter? m = some s) : .setter s (parameter m) ∈ declared c := by
  refine List.mem_append_left _ (List.mem_append_right _ (List.mem_flatMap.mpr ⟨m, hm, ?_⟩))
  simp [accessors, hs]

lemma mem_signals {c : ClassModel} {m : Member} (hm : m ∈ c.members) (h : notifies m) :
    m.name ∈ signals c :=
  List.mem_map_of_mem (List.mem_filter.mpr ⟨hm, h⟩)

theorem exposed_backed {c : ClassModel} {e : Exposed} (h : e ∈ exposed c) : e.Backed c := by
  obtain ⟨m, hm, rfl⟩ := List.mem_map.mp h
  refine ⟨getter_mem_declared hm, fun s hs => ⟨_, setter_mem_declared hm hs⟩, fun p hp => ?_⟩
  by_cases hnotifies : notifies m
  · simp only [hnotifies, if_true, Option.mem_some_iff] at hp
    exact hp ▸ mem_signals hm hnotifies
  · simp [hnotifies] at hp

/-- Only signals that the wrapper has are emitted, if properties with a setter may change. -/
theorem emitted_mem_signals {c : ClassModel}
    (hwritten : ∀ m ∈ c.members, m.setter.isSome → m.access = .readWrite) {d : Definition}
    (hd : d ∈ definitions c) {property : String} (h : property ∈ d.body.emitted) :
    property ∈ signals c := by
  rcases body_cases hd with hf | hf | ⟨m, hm, ⟨_, hf⟩ | hf | ⟨s, hs, hf⟩⟩ | hf | hf <;>
    rw [hf] at h
  · simp [Body.emitted] at h
  · simp [Body.emitted] at h
  · simp [Body.emitted] at h
  · simp [Body.emitted] at h
  · obtain rfl : property = m.name := by simpa [Body.emitted] using h
    obtain ⟨hchild, hsetter⟩ := setter?_eq_some_iff.mp hs
    have haccess := hwritten m hm (by rw [hsetter]; rfl)
    exact mem_signals hm (by simp [notifies, hchild, haccess])
  · simp [Body.emitted] at h
  · rw [Body.emitted, watched, List.map_map] at h
    exact h

/-- Bodies use children that the wrapper holds. -/
theorem usedChildren_mem_childFields {c : ClassModel} {d : Definition} (hd : d ∈ definitions c)
    {property : String} (h : property ∈ d.body.usedChildren) :
    property ∈ (childFields c).map Prod.snd := by
  have hfields : (childFields c).map Prod.snd = (c.members.filter isChild).map (·.name) := by
    simp [childFields, Function.comp_def]
  have hchildren : (children c).map (·.property) = (c.members.filter isChild).map (·.name) := by
    simp [children, Function.comp_def]
  rw [hfields]
  rcases body_cases hd with hf | hf | ⟨m, hm, ⟨hchild, hf⟩ | hf | ⟨s, hs, hf⟩⟩ | hf | hf <;>
    rw [hf] at h
  · simp [Body.usedChildren] at h
  · exact hchildren ▸ h
  · obtain rfl : property = m.name := by simpa [Body.usedChildren] using h
    exact List.mem_map_of_mem (List.mem_filter.mpr ⟨hm, hchild⟩)
  · simp [Body.usedChildren] at h
  · simp [Body.usedChildren] at h
  · obtain ⟨part, hpart, hused⟩ := List.mem_filterMap.mp h
    obtain ⟨m, hm, rfl⟩ := List.mem_map.mp hpart
    by_cases hchild : isChild m
    · obtain rfl : m.name = property := by simpa [hchild] using hused
      exact List.mem_map_of_mem (List.mem_filter.mpr ⟨hm, hchild⟩)
    · simp [hchild] at hused
  · exact hchildren ▸ h

end Wrapper

namespace Schema

open Wrapper

lemma exists_class_of_isChild (s : Schema) {x : Scope} {m : Member}
    (hm : m ∈ (s.classAt Target.qtbean.profile x).members) (hchild : isChild m) :
    ∃ p ∈ x.properties, m = p.member Target.qtbean.profile x.names ∧ p.isList = false ∧
      ∃ c, p.nested = some c := by
  obtain ⟨p, hp, rfl⟩ := List.mem_map.mp hm
  obtain ⟨hlist, hclass⟩ := (isChild_member_iff x.names p).mp hchild
  exact ⟨p, hp, rfl, hlist, Option.isSome_iff_exists.mp hclass⟩

/-- The type of a child is a pointer to its wrapper. -/
lemma shownType_of_isChild (s : Schema) {x : Scope} {m : Member}
    (hm : m ∈ (s.classAt Target.qtbean.profile x).members) (hchild : isChild m) :
    shownType m = (m.qt.bind (·.wrapper)).getD "" ++ " *" := by
  obtain ⟨p, _, rfl, hlist, c, hc⟩ := s.exists_class_of_isChild hm hchild
  rw [shownType_of_class hlist hc, wrapper_of_class hc]

/-- The children of a wrapper have wrappers that are declared before, if the scopes of their classes
come before. -/
lemma child_available (s : Schema) {x : Scope} (hx : x ∈ s.scopes) {before : List Scope}
    (hbefore : ∀ p ∈ x.properties, ∀ c, p.nested = some c → x.inner c ∈ before)
    {child : Child} (h : child ∈ children (s.classAt Target.qtbean.profile x)) :
    child.Available (before.map (s.classAt Target.qtbean.profile))
      (s.classAt Target.qtbean.profile x) := by
  obtain ⟨m, hm, rfl⟩ := List.mem_map.mp h
  obtain ⟨hm, hchild⟩ := List.mem_filter.mp hm
  have htype := s.shownType_of_isChild hm hchild
  refine ⟨htype ▸ childFields_mem hm hchild, htype ▸ Wrapper.getter_mem_declared hm, ?_⟩
  obtain ⟨p, hp, hpm, _, c, hc⟩ := s.exists_class_of_isChild hm hchild
  refine ⟨_, List.mem_map_of_mem (hbefore p hp c hc), ?_, m, hm, rfl, fun f hf => ?_⟩
  · rw [name_classAt_inner, hpm, wrapper_of_class hc]
  · have hbean := s.beanType_inner hx hc
    rw [← hpm] at hbean
    rcases List.mem_pair.mp hf with rfl | rfl
    · exact ⟨by simp [declared], by simp only [Method.prototype, List.head?_cons, hbean]; rfl⟩
    · exact ⟨by simp [declared], by simp only [Method.prototype, List.head?_cons, hbean]; rfl⟩

lemma access_of_setter (s : Schema) (profile : Profile) (x : Scope) :
    ∀ m ∈ (s.classAt profile x).members, m.setter.isSome → m.access = .readWrite := by
  intro m hm hsetter
  obtain ⟨p, _, rfl⟩ := List.mem_map.mp hm
  change (if p.access = .readWrite then some (MemberName.setter p.name) else none).isSome at hsetter
  change p.access = .readWrite
  by_contra haccess
  rw [if_neg haccess] at hsetter
  cases hsetter

lemma closed_classAt (s : Schema) {before after : List Scope} {x : Scope}
    (h : s.scopes = before ++ x :: after) :
    Closed (before.map (s.classAt Target.qtbean.profile)) (s.classAt Target.qtbean.profile x) := by
  have hx : x ∈ s.scopes := by simp [h]
  refine ⟨defines_declared _, fun _ => exposed_backed,
    fun _ hd _ => emitted_mem_signals (s.access_of_setter _ x) hd,
    fun _ hd _ => usedChildren_mem_childFields hd, ?_,
    fun _ => s.child_available hx (s.childrenFirst_scopes before x after h)⟩
  simp only [childFields, children, List.map_map]
  refine List.map_congr_left fun m hm => ?_
  obtain ⟨hm, hchild⟩ := List.mem_filter.mp hm
  rw [s.shownType_of_isChild hm hchild]
  rfl

/-- The header and the source of the wrappers of a schema have the same functions, and every name
in them is declared: accessors and signals in the wrapper itself, and the wrappers of children
before it. -/
theorem wrappers_closed (s : Schema) :
    Written (s.model .qtbean) ∧
    ∀ before c after, (s.model .qtbean).root.postorder = before ++ c :: after →
      Closed before c := by
  refine ⟨Wrapper.written rfl, fun before c after h => ?_⟩
  rw [postorder_model] at h
  obtain ⟨xs, rest, hscopes, rfl, hrest⟩ := List.map_eq_append_iff.mp h
  obtain ⟨x, ys, rfl, rfl, rfl⟩ := List.map_eq_cons_iff.mp hrest
  exact s.closed_classAt hscopes

/-- The wrapper of a trip has a child whose wrapper is declared before, and shows the list of stops
in that wrapper as a plain value. -/
theorem wrappers_closed_trip :
    let root := ((tripDocument.typed .qtbean).model .qtbean).root
    Closed (root.postorder.take 2) root ∧
      children root = [⟨"route", "TripRouteObject", "route"⟩] ∧
      root.postorder.map (fun c => (Wrapper.name c, (children c).length)) =
        [("TripRouteStopObject", 0), ("TripRouteObject", 0), ("TripObject", 1)] :=
  ⟨(wrappers_closed (tripDocument.typed .qtbean)).2 _ _ [] rfl, rfl, rfl⟩

end Schema

end BeanForge
