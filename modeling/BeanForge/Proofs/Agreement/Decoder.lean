import BeanForge.Proofs.Agreement.ValueClass
import BeanForge.Proofs.Decoder.Names
/-!
# Decoders and value classes

The function that decodes a class declares one local for each property, in order and with the type
that the getter of the property has outside of the value class, and constructs a value of that
class from these locals.
-/
namespace BeanForge.Decoder

/-- The local that a statement declares for a property, and its type. -/
def Statement.field? : Statement → Option (String × String)
  | scalar type field _ _ _ | declareDefault type field | declareList type field =>
    some (field, type)
  | bind .. | require .. | appendScalars .. | parse .. | appendParsed .. | construct .. => none

/-- The value that a statement constructs: its class and the arguments. -/
def Statement.construction? : Statement → Option (String × List Argument)
  | construct type arguments => some (type, arguments)
  | _ => none

/-- The locals that a body declares for properties, with their types. -/
def fieldLocals (body : List Statement) : List (String × String) :=
  body.filterMap Statement.field?

/-- An argument that fits the property at an index: it is the local at the same index, which has
the name of the property, and the type of its getter. -/
def ArgumentFits (x : Scope) (body : List Statement) (b : ClassModel) (i : ℕ)
    (a : Argument) : Prop :=
  ∃ p type getter, x.properties[i]? = some p ∧ ValueClass.HasProperty b i p.name type getter ∧
    a.source = fieldLocal p.name ∧ (fieldLocals body)[i]? = some (a.source, type)

/-- The function for a scope that fits the value class of the scope. -/
structure Matches (x : Scope) (f : DecodeFunction) (b : ClassModel) : Prop where
  owner : ∀ d ∈ ValueClass.definitions b, d.owner = Text.join "::" x.names
  result : f.result = Text.join "::" x.names
  distinct : ((fieldLocals f.body).map Prod.fst).Nodup
  constructs : ∃ arguments,
    f.body.filterMap Statement.construction? = [(Text.join "::" x.names, arguments)] ∧
    arguments.length = (ValueClass.valueParameters b).length ∧
    ∀ i a, arguments[i]? = some a → ArgumentFits x f.body b i a

/-- The function that decodes the class at a position: the entry or a parse function. -/
def decodeFunction? (m : Model) : List ℕ → Option DecodeFunction
  | [] => entryFunction? m
  | i :: position =>
    (m.root.at? (i :: position)).bind (parseFunction? (functionTable m.root.nested))

lemma filterMap_binds {γ : Type} (g : Statement → Option γ)
    (hg : ∀ object parent key, g (.bind object parent key) = none)
    {objects : List (List String × String)} {plan : List Lookup} {binds : List Statement}
    (hbinds : plan.mapM (bindStatement objects) = some binds) : binds.filterMap g = [] := by
  induction plan generalizing binds with
  | nil =>
    obtain rfl : binds = [] := by simpa [eq_comm] using hbinds
    rfl
  | cons l plan ih =>
    obtain ⟨s, rest, hs, hrest, rfl⟩ := Fallible.mapM_cons_eq_some_iff.mp hbinds
    obtain ⟨own, parent, _, _, rfl⟩ := bindStatement_eq_some_iff.mp hs
    rw [List.filterMap_cons, hg, ih hrest]

/-- To read a property takes one local, which has the type of the property. -/
lemma fieldLocals_readStatements {table : List (String × String)} {m : Member} {j : JsonSource}
    {object : String} {reads : List Statement}
    (hreads : readStatements table m j object = some reads) :
    fieldLocals reads = [(fieldLocal m.name, m.nestedMemberType)] ∧
      reads.filterMap Statement.construction? = [] := by
  unfold readStatements at hreads
  cases hshape : j.shape <;> rw [hshape] at hreads
  case simple | array =>
    obtain rfl := Option.some.inj hreads
    cases j.optional <;> exact ⟨rfl, rfl⟩
  case object | objectArray =>
    obtain ⟨f, _, hmade⟩ := Option.bind_eq_some_iff.mp hreads
    obtain rfl := Option.some.inj hmade
    cases j.optional <;> exact ⟨rfl, rfl⟩

/-- To read all properties takes one local for each, in the same order. -/
lemma fieldLocals_reads {table : List (String × String)} {objects : List (List String × String)}
    {members : List Member} (hjson : ∀ m ∈ members, m.json.isSome) {reads : List (List Statement)}
    (hreads : members.mapM (memberStatements table objects) = some reads) :
    fieldLocals reads.flatten = members.map (fun m => (fieldLocal m.name, m.nestedMemberType)) ∧
      reads.flatten.filterMap Statement.construction? = [] := by
  induction members generalizing reads with
  | nil =>
    obtain rfl : reads = [] := by simpa [eq_comm] using hreads
    exact ⟨rfl, rfl⟩
  | cons m members ih =>
    obtain ⟨hm, hmembers⟩ := List.forall_mem_cons.mp hjson
    obtain ⟨read, rest, hread, hrest, rfl⟩ := Fallible.mapM_cons_eq_some_iff.mp hreads
    obtain ⟨hfields, hconstructs⟩ := ih hmembers hrest
    obtain ⟨j, hj⟩ := Option.isSome_iff_exists.mp hm
    rw [memberStatements, hj] at hread
    obtain ⟨object, _, hread⟩ := Option.bind_eq_some_iff.mp hread
    obtain ⟨hfield, hconstruct⟩ := fieldLocals_readStatements hread
    rw [fieldLocals] at hfield hfields ⊢
    rw [List.flatten_cons, List.filterMap_append, List.filterMap_append, hfield, hfields,
      hconstruct, hconstructs]
    exact ⟨rfl, rfl⟩

/-- What a body declares for properties, and the one value that it constructs. -/
theorem fieldLocals_body {table : List (String × String)} {c : ClassModel}
    (hjson : ∀ m ∈ c.members, m.json.isSome) {body : List Statement}
    (hbody : body? table c = some body) :
    fieldLocals body = c.members.map (fun m => (fieldLocal m.name, m.nestedMemberType)) ∧
      body.filterMap Statement.construction? = [(c.nestedName, c.members.map argument)] := by
  obtain ⟨binds, hbinds, hbody⟩ := Option.bind_eq_some_iff.mp hbody
  obtain ⟨reads, hreads, hbody⟩ := Option.bind_eq_some_iff.mp hbody
  obtain rfl := Option.some.inj hbody
  obtain ⟨hfields, hconstructs⟩ := fieldLocals_reads hjson hreads
  rw [fieldLocals] at hfields ⊢
  rw [List.filterMap_append, List.filterMap_append, List.filterMap_append, List.filterMap_append,
    filterMap_binds _ (fun _ _ _ => rfl) hbinds, filterMap_binds _ (fun _ _ _ => rfl) hbinds,
    hfields, hconstructs]
  exact ⟨List.append_nil _, rfl⟩

/-- The function for a scope fits the value class of the same scope. -/
theorem matches_classAt (s : Schema) {x : Scope} (hchecked : x.Checked true)
    {table : List (String × String)} {f : DecodeFunction}
    (hresult : f.result = Text.join "::" x.names)
    (hbody : body? table (s.classAt Target.factory.profile x) = some f.body) :
    Matches x f (s.unbound.classAt Target.bean.profile x.unbound) := by
  have hmembers := s.members_unbound .factory x
  have hjson : ∀ m ∈ (s.classAt Target.factory.profile x).members, m.json.isSome := by
    intro m hm
    obtain ⟨p, hp, rfl⟩ := List.mem_map.mp hm
    obtain ⟨b, hb⟩ := hchecked.bound rfl p hp
    simp [Property.member, Target.profile, hb]
  obtain ⟨hfields, hconstructs⟩ := fieldLocals_body hjson hbody
  refine ⟨?_, hresult, ?_, _, hconstructs, ?_, ?_⟩
  · intro d hd
    rw [ValueClass.owner_of_mem_definitions hd]
    rfl
  · have hnames : (fieldLocals f.body).map Prod.fst =
        (x.properties.map (·.name)).map fieldLocal := by
      rw [hfields]
      simp [Schema.classAt, Schema.classModel, Function.comp_def, Property.member]
    rw [hnames]
    exact hchecked.names.map fun _ _ => fieldLocal_injective
  · rw [ValueClass.valueParameters_eq, hmembers]
    simp
  · intro i a ha
    rw [List.getElem?_map] at ha
    obtain ⟨m, hm, rfl⟩ := Option.map_eq_some_iff.mp ha
    have hcommon : (s.unbound.classAt Target.bean.profile x.unbound).members[i]? =
        some m.common := by
      rw [hmembers, List.getElem?_map, hm]
      rfl
    have hproperty := ValueClass.hasProperty_of_getElem? hcommon
    have hlocal : (fieldLocals f.body)[i]? = some (fieldLocal m.name, m.nestedMemberType) := by
      rw [hfields, List.getElem?_map, hm]
      rfl
    rw [Schema.classAt, Schema.classModel, List.getElem?_map] at hm
    obtain ⟨p, hp, rfl⟩ := Option.map_eq_some_iff.mp hm
    exact ⟨p, _, _, hp, hproperty, rfl, hlocal⟩

end BeanForge.Decoder
