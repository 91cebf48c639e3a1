import BeanForge.Decoder.Scope
import BeanForge.Proofs.DecodePlan
import BeanForge.Proofs.Fallible
import BeanForge.Proofs.Scopes
import BeanForge.Rendering
/-!
# Models that can be rendered

A decoder looks up parse functions by classes and object locals by segments, and the model has
no files if one of them is missing. `files?_isSome_iff` says that this is so exactly if the model
refers to something that it does not hold. Models made from schemas hold all that they refer to:
every object of a property is in the decode plan of its class, and every class of a property is
among the nested classes.
-/
namespace BeanForge

namespace Decoder

lemma isSome_lastOf_iff {κ ν : Type} [BEq κ] [LawfulBEq κ] (table : List (κ × ν)) (key : κ) :
    (lastOf table key).isSome ↔ key ∈ table.map Prod.fst := by
  simp only [lastOf, List.lookup_isSome_iff, List.mem_reverse, beq_iff_eq, List.mem_map,
    @eq_comm _ key]

lemma keys_functionTable (classes : List ClassModel) :
    (functionTable classes).map Prod.fst = classes.map (·.nestedName) := by
  rw [functionTable, List.map_map]
  conv_rhs => rw [← List.zipIdx_map_fst 0 classes, List.map_map]
  rfl

lemma keys_objectTable (c : ClassModel) :
    (objectTable c).map Prod.fst =
      [JsonPath.rootSegment] :: (steps c).map Lookup.segments := by
  rw [objectTable, List.map_cons, List.map_map]
  conv_rhs => rw [← List.zipIdx_map_fst 0 (steps c), List.map_map]
  rfl

lemma isSome_function_iff (classes : List ClassModel) (nestedName : String) :
    (lastOf (functionTable classes) nestedName).isSome ↔
      ∃ d ∈ classes, d.nestedName = nestedName := by
  rw [isSome_lastOf_iff, keys_functionTable, List.mem_map]

lemma isSome_object_iff (c : ClassModel) (segments : List String) :
    (lastOf (objectTable c) segments).isSome ↔ Reaches c segments := by
  rw [isSome_lastOf_iff, keys_objectTable, List.mem_cons, List.mem_map]
  rfl

lemma isSome_bindStatement_iff (c : ClassModel) {l : Lookup} (h : l ∈ steps c) :
    (bindStatement (objectTable c) l).isSome ↔ Reaches c l.parents := by
  have hown : (lastOf (objectTable c) l.segments).isSome :=
    (isSome_object_iff c _).mpr (.inr ⟨l, h, rfl⟩)
  obtain ⟨object, hobject⟩ := Option.isSome_iff_exists.mp hown
  rw [← isSome_object_iff, bindStatement, hobject]
  cases lastOf (objectTable c) l.parents <;> simp

lemma bindStatement_eq_some_iff {objects : List (List String × String)} {l : Lookup}
    {s : Statement} :
    bindStatement objects l = some s ↔ ∃ own parent, lastOf objects l.segments = some own ∧
      lastOf objects l.parents = some parent ∧ s = .bind own parent l.key := by
  rw [bindStatement]
  cases lastOf objects l.segments <;> cases lastOf objects l.parents <;> simp [eq_comm]

lemma isSome_readStatements_iff (functions : List (String × String)) (m : Member)
    (s : JsonSource) (object : String) :
    (readStatements functions m s object).isSome ↔
      (isParsed s.shape → (lastOf functions m.nestedType).isSome) := by
  cases h : s.shape <;> simp only [readStatements, h] <;>
    cases lastOf functions m.nestedType <;> simp [isParsed]

lemma isSome_memberStatements_iff (classes : List ClassModel) (c : ClassModel) (m : Member) :
    (memberStatements (functionTable classes) (objectTable c) m).isSome ↔
      ∀ s, m.json = some s → Reaches c s.parents ∧
        (isParsed s.shape → ∃ d ∈ classes, d.nestedName = m.nestedType) := by
  cases hj : m.json with
  | none => simp [memberStatements, hj]
  | some s =>
    rw [memberStatements, hj]
    simp only [Option.some.injEq, forall_eq', ← isSome_object_iff, ← isSome_function_iff]
    cases lastOf (objectTable c) s.parents with
    | none => simp
    | some object => simpa using isSome_readStatements_iff (functionTable classes) m s object

/-- A class has a body if all that it refers to is found. -/
theorem isSome_body?_iff (classes : List ClassModel) (c : ClassModel) :
    (body? (functionTable classes) c).isSome ↔ RefersWithin classes c := by
  have hbinds := Fallible.isSome_mapM_iff (bindStatement (objectTable c)) (steps c)
  have hreads := Fallible.isSome_mapM_iff (memberStatements (functionTable classes) (objectTable c))
    c.members
  have hsteps : (∀ l ∈ steps c, (bindStatement (objectTable c) l).isSome) ↔
      ∀ l ∈ steps c, Reaches c l.parents :=
    forall₂_congr fun l hl => isSome_bindStatement_iff c hl
  rw [hsteps] at hbinds
  simp only [isSome_memberStatements_iff] at hreads
  rw [RefersWithin, ← hbinds, ← hreads, body?]
  cases (steps c).mapM (bindStatement (objectTable c)) <;>
    cases c.members.mapM (memberStatements (functionTable classes) (objectTable c)) <;> simp

lemma parseFunction?_eq_some_iff {table : List (String × String)} {c : ClassModel}
    {f : DecodeFunction} :
    parseFunction? table c = some f ↔ ∃ name body, lastOf table c.nestedName = some name ∧
      body? table c = some body ∧ f = ⟨c.nestedName, name, body⟩ := by
  rw [parseFunction?]
  cases lastOf table c.nestedName <;> cases body? table c <;> simp [eq_comm]

lemma isSome_parseFunction?_iff (m : Model) {c : ClassModel} (h : c ∈ m.root.nested) :
    (parseFunction? (functionTable m.root.nested) c).isSome ↔ RefersWithin m.root.nested c := by
  have hown : (lastOf (functionTable m.root.nested) c.nestedName).isSome :=
    (isSome_function_iff _ _).mpr ⟨c, h, rfl⟩
  obtain ⟨name, hname⟩ := Option.isSome_iff_exists.mp hown
  rw [← isSome_body?_iff, parseFunction?, hname]
  cases body? (functionTable m.root.nested) c <;> simp

lemma isSome_parseFunctions?_iff (m : Model) :
    (parseFunctions? m).isSome ↔ ∀ c ∈ m.root.nested, RefersWithin m.root.nested c := by
  rw [parseFunctions?, Fallible.isSome_mapM_iff]
  exact forall₂_congr fun c hc => isSome_parseFunction?_iff m hc

lemma isSome_entryFunction?_iff (m : Model) :
    (entryFunction? m).isSome ↔ RefersWithin m.root.nested m.root := by
  rw [← isSome_body?_iff, entryFunction?]
  cases body? (functionTable m.root.nested) m.root <;> simp

lemma complete_iff_functions (m : Model) :
    Complete m ↔ (parseFunctions? m).isSome ∧ (entryFunction? m).isSome := by
  rw [Complete, ClassModel.postorder_eq, List.forall_mem_append, List.forall_mem_singleton,
    isSome_parseFunctions?_iff, isSome_entryFunction?_iff]

/-- A model for a factory has files exactly if it holds all that it refers to. -/
theorem files?_isSome_iff (m : Model) (stem : String) :
    (files? m stem).isSome ↔ Complete m := by
  rw [complete_iff_functions, files?, source?]
  cases parseFunctions? m <;> cases entryFunction? m <;> simp

/-- Every look-up that writing a decoder makes has a result: of parse functions by classes, and of
object locals by the steps of a plan and by what properties are read from. -/
structure AllFound (m : Model) : Prop where
  classes : ∀ c ∈ m.root.nested, (lastOf (functionTable m.root.nested) c.nestedName).isSome
  steps : ∀ c ∈ m.root.postorder, ∀ l ∈ steps c,
    (lastOf (objectTable c) l.segments).isSome ∧ (lastOf (objectTable c) l.parents).isSome
  objects : ∀ c ∈ m.root.postorder, ∀ p ∈ c.members, ∀ j, p.json = some j →
    (lastOf (objectTable c) j.parents).isSome
  functions : ∀ c ∈ m.root.postorder, ∀ p ∈ c.members, ∀ j, p.json = some j →
    isParsed j.shape → (lastOf (functionTable m.root.nested) p.nestedType).isSome

theorem allFound_iff_complete (m : Model) : AllFound m ↔ Complete m := by
  constructor
  · intro h c hc
    refine ⟨fun l hl => (isSome_object_iff c _).mp (h.steps c hc l hl).2, fun p hp j hj => ⟨?_, ?_⟩⟩
    · exact (isSome_object_iff c _).mp (h.objects c hc p hp j hj)
    · exact fun hparsed => (isSome_function_iff _ _).mp (h.functions c hc p hp j hj hparsed)
  · intro h
    refine ⟨?_, ?_, ?_, ?_⟩
    · exact fun c hc => (isSome_function_iff _ _).mpr ⟨c, hc, rfl⟩
    · exact fun c hc l hl => ⟨(isSome_object_iff c _).mpr (.inr ⟨l, hl, rfl⟩),
        (isSome_object_iff c _).mpr ((h c hc).1 l hl)⟩
    · exact fun c hc p hp j hj => (isSome_object_iff c _).mpr ((h c hc).2 p hp j hj).1
    · exact fun c hc p hp j hj hparsed =>
        (isSome_function_iff _ _).mpr (((h c hc).2 p hp j hj).2 hparsed)

/-- Two files, of which the first is the header. -/
lemma exists_files?_of_complete {m : Model} (h : Complete m) (stem : String) :
    ∃ header source, files? m stem = some [header, source] := by
  obtain ⟨fs, hfs⟩ := Option.isSome_iff_exists.mp ((files?_isSome_iff m stem).mpr h)
  rw [files?] at hfs ⊢
  cases hsource : source? m stem with
  | none => simp [hsource] at hfs
  | some text => exact ⟨_, _, rfl⟩

end Decoder

namespace Schema

open Decoder

lemma steps_classAt (s : Schema) (x : Scope) :
    steps (s.classAt Target.factory.profile x) = decodePlan (Property.boundPaths x.properties) :=
  rfl

lemma reaches_classAt_iff (s : Schema) (x : Scope) (segments : List String) :
    Reaches (s.classAt Target.factory.profile x) segments ↔
      Reachable (decodePlan (Property.boundPaths x.properties)) segments := by
  rw [Reaches, steps_classAt, Reachable, List.mem_map]

/-- What the properties of a scope are read from is at hand in its class. -/
lemma reaches_parents_of_binding (s : Schema) (x : Scope) {p : Property} (hp : p ∈ x.properties)
    {b : JsonBinding} (hb : p.binding = some b) :
    Reaches (s.classAt Target.factory.profile x) (JsonPath.rooted b.path).1 := by
  rw [reaches_classAt_iff]
  refine reachable_decodePlan (List.mem_filterMap.mpr ⟨p, hp, ?_⟩)
  rw [hb]
  rfl

lemma reaches_parents_of_step (s : Schema) (x : Scope) {l : Lookup}
    (h : l ∈ steps (s.classAt Target.factory.profile x)) :
    Reaches (s.classAt Target.factory.profile x) l.parents := by
  rw [steps_classAt] at h
  obtain ⟨before, after, hplan⟩ := List.append_of_mem h
  rw [reaches_classAt_iff]
  rcases reachable_parents_of_decodePlan hplan with hroot | hbefore
  · exact .inl hroot
  · exact .inr (by rw [hplan, List.map_append]; exact List.mem_append_left _ hbefore)

/-- A property that is parsed by a function declares a class. -/
lemma isParsed_ofProperty_iff (isClass isList : Bool) :
    isParsed (JsonShape.ofProperty isClass isList) ↔ isClass := by
  cases isClass <;> cases isList <;> simp [JsonShape.ofProperty, isParsed]

/-- Models made from schemas hold all that they refer to. -/
theorem complete_model (s : Schema) : Complete (s.model .factory) := by
  intro c hc
  rw [postorder_model] at hc
  obtain ⟨x, hx, rfl⟩ := List.mem_map.mp hc
  refine ⟨fun l hl => reaches_parents_of_step s x hl, ?_⟩
  intro m hm j hj
  obtain ⟨p, hp, rfl⟩ := List.mem_map.mp hm
  obtain ⟨b, hb, rfl⟩ := Option.map_eq_some_iff.mp hj
  refine ⟨reaches_parents_of_binding s x hp hb, fun hparsed => ?_⟩
  rw [Property.jsonSource, isParsed_ofProperty_iff] at hparsed
  obtain ⟨c, hc⟩ := Option.isSome_iff_exists.mp hparsed
  refine ⟨s.classAt Target.factory.profile (x.inner c), ?_, ?_⟩
  · rw [nested_root_model]
    exact List.mem_map_of_mem (inner_mem_nestedScopes s hx hp hc)
  · exact (nestedType_member_of_class s _ (names_ne_nil s hx) hc).symm

/-- A model made from a schema always has its two files, and writing a decoder finds all that it
looks up. The schema need not come from a document that was checked. -/
theorem exists_files?_model (s : Schema) :
    (∀ target stem, ∃ header source,
      (s.model target).files? stem = some [header, source]) ∧ AllFound (s.model .factory) := by
  refine ⟨fun target stem => ?_, (allFound_iff_complete _).mpr (complete_model s)⟩
  cases target with
  | bean => exact ⟨_, _, rfl⟩
  | qtbean => exact ⟨_, _, rfl⟩
  | factory => exact exists_files?_of_complete (complete_model s) stem

end Schema

end BeanForge
