import BeanForge.Proofs.Interface.Prototype
import BeanForge.Proofs.Agreement.Renderings
import BeanForge.Proofs.Rendering
/-!
# Headers and sources of value classes

For every class of a model, however deep it is nested, the source defines just the functions that
the header declares without a body, in the same order and with the same prototypes; only the results
of getters are written differently, since a definition stands outside of its class. What goes
through all properties does so in their order. All this is said of the code that the files consist
of.
-/
namespace BeanForge.ValueClass

open SourceText Text

/-- The prototype of a member function of a class. -/
def Method.prototype (className : String) : Method → Prototype
  | .construct ps => ⟨none, className, ps.map fun p => ⟨p.text, none⟩, false⟩
  | .equal => ⟨some "bool", "operator==", [⟨"const " ++ className ++ " &other", none⟩], true⟩
  | .notEqual => ⟨some "bool", "operator!=", [⟨"const " ++ className ++ " &other", none⟩], true⟩
  | .getter result name => ⟨some result, name, [], true⟩
  | .setter name p => ⟨some "void", name, [⟨p.text, none⟩], false⟩

/-- The functions that a class has for its properties: a constructor that takes all of them, if
there are any, comparisons, and for each property a getter and perhaps a setter. -/
def interface (typeOf : Member → String) (c : ClassModel) : List Method :=
  (if c.members = [] then [] else [.construct (c.members.map parameter)]) ++
    .equal :: .notEqual :: c.members.flatMap fun m =>
      .getter (typeOf m) m.getter :: m.setter.toList.map fun s => .setter s (parameter m)

/-- The lines that declare a function: a constructor has each parameter on a line of its own. -/
def declaredLines (p : Prototype) : List String :=
  match p.result with
  | none => ["    explicit " ++ p.name, "    (",
      "        " ++ join ",\n        " (p.parameters.map Formal.declared), "    );"]
  | some _ => ["    " ++ p.declared ++ ";"]

/-- The lines that start the definition of a function. -/
def definedLines (owner : String) (p : Prototype) : List String :=
  match p.result with
  | none => [owner ++ "::" ++ p.name, "(",
      "    " ++ join ",\n    " (p.parameters.map Formal.text), ")"]
  | some _ => [p.defined owner]

lemma declarationCode_eq (className : String) (f : Method) :
    f.declarationCode className = declaredLines (f.prototype className) := by
  cases f <;>
    simp [Method.declarationCode, declaredLines, Method.prototype, Prototype.declared,
      Prototype.text, Formal.declared, Parameter.text, Function.comp_def, ← String.toList_inj]

lemma definitionCode_eq (owner className : String) (f : Method) :
    f.definitionCode owner className = definedLines owner (f.prototype className) := by
  cases f <;>
    simp [Method.definitionCode, definedLines, Method.prototype, Prototype.defined, Prototype.text,
      Parameter.text, Function.comp_def, ← String.toList_inj]

/-- A definition of a declared function of a class: both are written from the same prototype, apart
from the result. -/
structure Defines (c : ClassModel) (f : Method) (d : Definition) : Prop where
  owner : d.owner = c.nestedName
  declared : f.declarationCode c.name = declaredLines (f.prototype c.name)
  defined : d.code =
    definedLines c.nestedName (d.method.prototype c.name) ++ d.body.code ++ [""]
  same : (d.method.prototype c.name).Same (f.prototype c.name)

/-- A class that is the same in the header and in the source. -/
structure Consistent (c : ClassModel) : Prop where
  /-- The header has the class with the classes in it, and what it declares itself at the end. -/
  block : ∀ depth, parts depth c =
    .start depth c :: c.classes.flatMap (parts (depth + 1)) ++ [.finish depth c]
  /-- All that is declared without a body stands there. -/
  endCode : ∃ constructors functions, constructors ++ functions = declared c ∧
    endCode c = ["    explicit " ++ c.name ++ "() = default;"] ++
      constructors.flatMap (Method.declarationCode c.name) ++
      ["    DEFAULT_COPY_DEFAULT_MOVE(" ++ c.name ++ ");"] ++
      functions.flatMap (Method.declarationCode c.name) ++
      (if c.members = [] then [] else ["private:"]) ++ (fields c).map Field.code ++ ["\x7d;"]
  declared : declared c = interface Member.memberType c
  defined : (definitions c).map (·.method) = interface Member.nestedMemberType c
  defines : List.Forall₂ (Defines c) (ValueClass.declared c) (definitions c)
  /-- The constructor takes all properties and stores all of them. -/
  stored : ∀ d ∈ definitions c, ∀ ps, d.method = .construct ps →
    ps.map (·.name) = c.members.map (·.name) ∧
      d.body = .storeAll (c.members.map fun m => (m.name, m.stored))
  compared : ∀ d ∈ definitions c, d.method = .equal → d.body = .compare (c.members.map (·.name))
  fields : (fields c).map (·.property) = c.members.map (·.name)

lemma constructors_eq (c : ClassModel) :
    constructors c = if c.members = [] then [] else [.construct (c.members.map parameter)] := by
  simp [constructors]

lemma interface_eq (typeOf : Member → String) (c : ClassModel) :
    interface typeOf c = constructors c ++ functions typeOf c := by
  have haccessors : ∀ m : Member, accessors typeOf m =
      .getter (typeOf m) m.getter :: m.setter.toList.map fun s => .setter s (parameter m) := by
    intro m
    cases h : m.setter <;> simp [accessors, h]
  simp only [interface, constructors_eq, functions, ← haccessors]
  rfl

lemma defined_eq (c : ClassModel) :
    (definitions c).map (·.method) = interface Member.nestedMemberType c := by
  have haccessors : ∀ m : Member, (accessorDefinitions c m).map (·.method) =
      accessors Member.nestedMemberType m := by
    intro m
    cases h : m.setter <;> simp [accessors, accessorDefinitions, h]
  simp [interface_eq, definitions, functions, List.map_flatMap, haccessors, Function.comp_def]

/-- A function whose result may be written in another way is defined by what has its method. -/
lemma defines_of_same {c : ClassModel} {f g : Method} (body : Body)
    (h : (g.prototype c.name).Same (f.prototype c.name)) :
    Defines c f ⟨c.nestedName, c.name, g, body⟩ :=
  ⟨rfl, declarationCode_eq c.name f, by rw [Definition.code, definitionCode_eq], h⟩

lemma defines_accessors (c : ClassModel) (m : Member) :
    List.Forall₂ (Defines c) (accessors Member.memberType m) (accessorDefinitions c m) := by
  have hgetter : Defines c (.getter m.memberType m.getter)
      ⟨c.nestedName, c.name, .getter m.nestedMemberType m.getter, .fetch m.name⟩ :=
    defines_of_same _ ⟨rfl, rfl, rfl⟩
  unfold accessors accessorDefinitions
  cases m.setter with
  | none => exact .cons hgetter .nil
  | some s => exact .cons hgetter (.cons (defines_of_same _ ⟨rfl, rfl, rfl⟩) .nil)

/-- The definitions of a class are those of its declared functions, one by one. -/
theorem defines_declared (c : ClassModel) :
    List.Forall₂ (Defines c) (declared c) (definitions c) := by
  have hconstructors : List.Forall₂ (Defines c) (constructors c) ((constructors c).map fun f =>
      ⟨c.nestedName, c.name, f, .storeAll (c.members.map fun m => (m.name, m.stored))⟩) := by
    rw [List.forall₂_map_right_iff, List.forall₂_same]
    exact fun f _ => defines_of_same _ ⟨rfl, rfl, rfl⟩
  have haccessors : ∀ ms : List Member, List.Forall₂ (Defines c)
      (ms.flatMap (accessors Member.memberType)) (ms.flatMap (accessorDefinitions c)) := by
    intro ms
    induction ms with
    | nil => exact .nil
    | cons m ms ih => exact List.rel_append (defines_accessors c m) ih
  rw [declared, functions, definitions, List.append_assoc]
  refine List.rel_append hconstructors (List.rel_append ?_ (haccessors c.members))
  exact .cons (defines_of_same _ ⟨rfl, rfl, rfl⟩) (.cons (defines_of_same _ ⟨rfl, rfl, rfl⟩) .nil)

/-- The functions that go through all properties. -/
lemma body_of_mem_definitions {c : ClassModel} {d : Definition} (h : d ∈ definitions c) :
    (∀ ps, d.method = .construct ps → ps = c.members.map parameter ∧
      d.body = .storeAll (c.members.map fun m => (m.name, m.stored))) ∧
    (d.method = .equal → d.body = .compare (c.members.map (·.name))) := by
  simp only [definitions, constructors_eq, accessorDefinitions, List.mem_append, List.mem_map,
    List.mem_flatMap, List.mem_cons, Option.mem_toList, Option.map_eq_some_iff, List.not_mem_nil,
    or_false] at h
  rcases h with (⟨f, hf, rfl⟩ | rfl | rfl) | ⟨m, _, rfl | ⟨s, _, rfl⟩⟩
  · split at hf
    · simp at hf
    · rw [List.mem_singleton.mp hf]
      exact ⟨fun ps hps => ⟨(Method.construct.inj hps).symm, rfl⟩, by simp⟩
  · exact ⟨by simp, fun _ => rfl⟩
  · simp
  · simp
  · simp

theorem consistent (c : ClassModel) : Consistent c where
  block depth := parts_eq depth c
  endCode := ⟨constructors c, functions Member.memberType c, rfl, by simp [ValueClass.endCode]⟩
  declared := by rw [interface_eq]; rfl
  defined := defined_eq c
  defines := defines_declared c
  stored := by
    intro d hd ps hps
    obtain ⟨rfl, hbody⟩ := (body_of_mem_definitions hd).1 ps hps
    rw [hbody, List.map_map]
    exact ⟨rfl, rfl⟩
  compared d hd := (body_of_mem_definitions hd).2
  fields := by simp [ValueClass.fields]

/-- The source of a model defines for each of its classes, and for nothing else, what the block of
the class in the header declares without a body. -/
theorem header_matches_source (m : Model) (hm : m.target = .bean) :
    Written m ∧ (parts 0 m.root).filterMap Part.finished? = m.root.postorder ∧
      ∀ c ∈ m.root.postorder, Consistent c :=
  ⟨written hm, finished_parts 0 m.root, fun c _ => consistent c⟩

/-- The classes of a trip, which are nested two levels deep, are the same in header and source. -/
theorem header_matches_source_trip :
    ((tripDocument.typed .bean).model .bean).target = .bean ∧
    ((tripDocument.typed .bean).model .bean).root.postorder.map (·.nestedName) =
      ["Trip::Route::Stop", "Trip::Route", "Trip"] ∧
    ∀ c ∈ ((tripDocument.typed .bean).model .bean).root.postorder, Consistent c :=
  ⟨rfl, rfl, (header_matches_source _ rfl).2.2⟩

end BeanForge.ValueClass
