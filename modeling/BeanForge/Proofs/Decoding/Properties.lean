import BeanForge.Decoding.OfSchema
import BeanForge.Proofs.Decoding.Objects
import BeanForge.Proofs.Document.Scopes
import BeanForge.Proofs.JsonPath
/-!
# The body of one class

The reads of a body put the value of each property in its own local, where the construction at the
end finds it: the names of a scope differ, and no read touches the local of an object or of
another property. So a body does what the schema says of its class, provided that the functions it
calls do so of theirs.
-/
namespace BeanForge.Decoding

open Decoder

variable {α β : Type}

/-- The value of the class of a scope that an object stands for. -/
def decodeClass (read : String → String) (C : Conversion α β) (x : Scope) (o : Fields α) :
    Option (Value β) :=
  (decodeProperties read C x.names x.properties o).map (.record (Text.join "::" x.names))

lemma decode_eq_decodeClass (read : String → String) (C : Conversion α β) (s : Schema)
    (o : Fields α) : decode read C s o = decodeClass read C s.rootScope o := by
  simp [decode, decodeClass, Schema.rootScope]

/-- The value of a property, given what there is at the end of its path. -/
def decodeFound (read : String → String) (C : Conversion α β) (x : Scope) (p : Property)
    (found : Option (Data α)) : Option (Value β) :=
  match p.nested, p.isList with
  | none, isList => some (decodePlain C p.typeName isList found)
  | some c, false =>
    found.elim (some (.default (Text.join "::" (x.inner c).names))) fun v =>
      decodeClass read C (x.inner c) (asObject (some v))
  | some c, true =>
    ((asArray found).mapM fun v => decodeClass read C (x.inner c) (asObject (some v))).map .list

lemma boundValue_eq (read : String → String) (o : Fields α) (b : JsonBinding) :
    boundValue read o b =
      if b.optional ∨ (valueAt read o b.path).isSome then some (valueAt read o b.path)
      else none := by
  unfold boundValue
  cases valueAt read o b.path <;> simp

/-- A property has no value if it is missing and must not be. -/
lemma decodeProperty_eq (read : String → String) (C : Conversion α β) {x : Scope}
    (hx : x.names ≠ []) {p : Property} {b : JsonBinding} (hb : p.binding = some b)
    (o : Fields α) :
    decodeProperty read C x.names p o =
      if b.optional ∨ (valueAt read o b.path).isSome then
        decodeFound read C x p (valueAt read o b.path)
      else none := by
  have hqualify := fun name => Schema.qualify_eq_join hx name
  obtain ⟨_, typeName, _, isList, nested, binding⟩ := p
  simp only at hb
  subst hb
  by_cases hthere : b.optional ∨ (valueAt read o b.path).isSome
  · rcases nested with _ | ⟨name, ps⟩ <;> cases isList <;>
      simp only [decodeProperty, boundValue_eq, if_pos hthere, decodeFound, Option.map_some,
        Option.bind_some, hqualify, decodeClass, Scope.inner]
    cases valueAt read o b.path <;> rfl
  · rcases nested with _ | ⟨name, ps⟩ <;> cases isList <;>
      simp only [decodeProperty, boundValue_eq, if_neg hthere, Option.map_none, Option.bind_none]

/-- Two ways to read keys that agree on the keys that a scope declares. -/
def AgreeOn (read read' : String → String) (x : Scope) : Prop :=
  ∀ p ∈ x.properties, ∀ b ∈ p.binding, ∀ key ∈ JsonPath.segments b.path, read key = read' key

section

variable {read read' : String → String} (C : Conversion α β)

lemma valueAt_congr {path : String} (h : ∀ key ∈ JsonPath.segments path, read key = read' key)
    (o : Fields α) : valueAt read o path = valueAt read' o path := by
  rw [JsonPath.segments_eq] at h
  have hwalk : (JsonPath.parts path).1.map read = (JsonPath.parts path).1.map read' :=
    List.map_congr_left fun key hkey => h key (List.mem_append_left _ hkey)
  rw [valueAt, valueAt, hwalk, h _ (List.mem_append_right _ (List.mem_singleton_self _))]

lemma decodeProperty_congr {x : Scope} (hx : x.names ≠ []) (hkeys : AgreeOn read read' x)
    {p : Property} (hp : p ∈ x.properties)
    (hclass : ∀ c, p.nested = some c →
      decodeClass read C (x.inner c) = decodeClass read' C (x.inner c))
    (o : Fields α) : decodeProperty read C x.names p o = decodeProperty read' C x.names p o := by
  cases hb : p.binding with
  | none =>
    obtain ⟨_, _, _, _, _, _⟩ := p
    obtain rfl : _ = none := hb
    rfl
  | some b =>
    have hfound : decodeFound read C x p = decodeFound read' C x p := by
      unfold decodeFound
      cases hc : p.nested with
      | none => rfl
      | some c => cases p.isList <;> simp only [hclass c hc]
    rw [decodeProperty_eq read C hx hb, decodeProperty_eq read' C hx hb,
      valueAt_congr (hkeys p hp b hb), hfound]

/-- Only the keys that a schema declares matter. -/
theorem decodeClass_congr (s : Schema) (hkeys : ∀ x ∈ s.scopes, AgreeOn read read' x) :
    ∀ x ∈ s.scopes, decodeClass read C x = decodeClass read' C x := by
  refine s.childrenFirst_scopes.forall fun x hx hclasses => funext fun o => ?_
  have hproperties : ∀ ps ⊆ x.properties,
      decodeProperties read C x.names ps o = decodeProperties read' C x.names ps o := by
    intro ps hps
    induction ps with
    | nil => rfl
    | cons p ps ih =>
      obtain ⟨hp, hps⟩ := List.cons_subset.mp hps
      rw [decodeProperties, decodeProperties, ih hps,
        decodeProperty_congr C (s.names_ne_nil hx) (hkeys x hx) hp (hclasses p hp)]
  rw [decodeClass, decodeClass, hproperties _ (List.Subset.refl _)]

end

/-- The parse function of a scope is there and does what the schema says. -/
def Defined (C : Conversion α β) (functions : Functions α β) (table : List (String × String))
    (x : Scope) : Prop :=
  ∀ function, lastOf table (Text.join "::" x.names) = some function →
    ∀ o, call functions function o = orNothing (decodeClass denoted C x o)

section

variable (table : List (String × String)) {p : Property} (b : JsonBinding) (object : String)

lemma readStatements_of_plain (names : List String) (hp : p.nested = none) :
    readStatements table (p.member Target.factory.profile names) (p.jsonSource b) object =
      some ((if b.optional then [] else [.require object (JsonPath.parts b.path).2]) ++
        if p.isList then
          [.declareList (p.member Target.factory.profile names).nestedMemberType
              (fieldLocal p.name),
            .appendScalars (fieldLocal p.name) object (JsonPath.parts b.path).2
              ((TypeName.conversion? p.typeName).getD "")]
        else
          [.scalar (p.member Target.factory.profile names).nestedMemberType (fieldLocal p.name)
            object (JsonPath.parts b.path).2 ((TypeName.conversion? p.typeName).getD "")]) := by
  cases hl : p.isList <;>
    simp [readStatements, Property.jsonSource, Property.isClass, hp, hl, JsonShape.ofProperty,
      JsonPath.rooted_eq, Property.member]

lemma readStatements_of_class {x : Scope} (hx : x.names ≠ []) {c : NestedClass}
    (hp : p.nested = some c) :
    readStatements table (p.member Target.factory.profile x.names) (p.jsonSource b) object =
      (lastOf table (Text.join "::" (x.inner c).names)).map fun f =>
        (if b.optional then [] else [.require object (JsonPath.parts b.path).2]) ++
          if p.isList then
            [.declareList (p.member Target.factory.profile x.names).nestedMemberType
                (fieldLocal p.name),
              .appendParsed (fieldLocal p.name) object (JsonPath.parts b.path).2 f]
          else
            [.declareDefault (Text.join "::" (x.inner c).names) (fieldLocal p.name),
              .parse (fieldLocal p.name) object (JsonPath.parts b.path).2 f] := by
  have hqualify := Schema.qualify_eq_join hx c.name
  cases hl : p.isList <;>
    simp [readStatements, Property.jsonSource, Property.isClass, hp, hl, JsonShape.ofProperty,
      JsonPath.rooted_eq, Property.member, Property.className?, hqualify, Scope.inner] <;>
    cases lastOf table (Text.join "::" (x.names ++ [c.name])) <;> rfl

end

section

variable {C : Conversion α β} {functions : Functions α β} {table : List (String × String)}
  {x : Scope}

/-- The reads of a property store its value. -/
theorem stores_property (hx : x.names ≠ []) {p : Property} {b : JsonBinding}
    (hb : p.binding = some b) (hconversion : (TypeName.conversion? p.typeName).isSome)
    (hdefined : ∀ c, p.nested = some c → Defined C functions table (x.inner c))
    {locals : Locals α β} {object : String} {o : Fields α}
    (hobject : locals.lookup object =
      some (.object (walk o ((JsonPath.parts b.path).1.map denoted))))
    (hfield : object ≠ fieldLocal p.name) {reads : List Statement}
    (hreads : readStatements table (p.member Target.factory.profile x.names) (p.jsonSource b)
      object = some reads) :
    Stores (fieldLocal p.name) locals (decodeProperty denoted C x.names p o)
      (runAll C functions locals reads) := by
  rw [decodeProperty_eq denoted C hx hb]
  cases hp : p.nested with
  | none =>
    obtain ⟨method, hmethod⟩ := Option.isSome_iff_exists.mp hconversion
    rw [readStatements_of_plain table b object x.names hp] at hreads
    obtain rfl := Option.some.inj hreads
    refine stores_presence C functions hobject b.optional _ ?_
    cases hl : p.isList with
    | false =>
      have hvalue : decodeFound denoted C x p (valueAt denoted o b.path) =
          some (.scalar (C.convert method (valueAt denoted o b.path))) := by
        cases hfound : valueAt denoted o b.path with
        | none => simp [decodeFound, hp, hl, decodePlain, C.convert_none _ _ hmethod]
        | some v => simp [decodeFound, hp, hl, decodePlain, hmethod]
      rw [hvalue, hmethod]
      exact stores_scalar C functions hobject _ _ _ method
    | true =>
      have hvalue : decodeFound denoted C x p (valueAt denoted o b.path) = some (.list
          ((asArray (valueAt denoted o b.path)).map fun v =>
            .scalar (C.convert method (some v)))) := by
        simp [decodeFound, hp, hl, decodePlain, hmethod]
      rw [hvalue, hmethod]
      exact stores_scalars C functions hobject hfield _ _ method
  | some c =>
    rw [readStatements_of_class table b object hx hp] at hreads
    obtain ⟨function, hfunction, rfl⟩ := Option.map_eq_some_iff.mp hreads
    have hcall := hdefined c hp function hfunction
    refine stores_presence C functions hobject b.optional _ ?_
    unfold decodeFound
    rw [hp]
    cases hl : p.isList with
    | false => exact stores_parsed C functions hobject hfield _ _ hcall
    | true => exact stores_allParsed C functions hobject hfield _ _ hcall

/-- The statements of a property of a class store its value, once all objects are bound. -/
lemma stores_member (s : Schema) (hx : x.names ≠ []) (hchecked : x.Checked true) {p : Property}
    (hp : p ∈ x.properties)
    (hdefined : ∀ c, p.nested = some c → Defined C functions table (x.inner c))
    {locals : Locals α β} {o : Fields α} {reads : List Statement}
    (hbound : ObjectsBound (s.classAt Target.factory.profile x) o
      (steps (s.classAt Target.factory.profile x)) locals)
    (hreads : memberStatements table (objectTable (s.classAt Target.factory.profile x))
      (p.member Target.factory.profile x.names) = some reads) :
    Stores (fieldLocal p.name) locals (decodeProperty denoted C x.names p o)
      (runAll C functions locals reads) := by
  obtain ⟨b, hb⟩ := hchecked.bound rfl p hp
  have hjson : (p.member Target.factory.profile x.names).json = some (p.jsonSource b) := by
    simp [Property.member, hb, Target.profile]
  rw [memberStatements, hjson] at hreads
  obtain ⟨object, hobject, hreads⟩ := Option.bind_eq_some_iff.mp hreads
  have hreach := (s.reaches_classAt_iff x _).mp (s.reaches_parents_of_binding x hp hb)
  have hlookup := hbound _ _ hreach hobject
  rw [JsonPath.rooted_eq] at hlookup
  exact stores_property hx hb (hchecked.convertible rfl p hp) hdefined hlookup
    (ne_fieldLocal_of_lastOf hobject p.name) hreads

/-- The reads of several properties leave each value in its own local and all other locals as they
are; they end the function if one of the values is missing. -/
theorem runAll_reads (s : Schema) (hx : x.names ≠ []) (hchecked : x.Checked true)
    (hdefined : ∀ p ∈ x.properties, ∀ c, p.nested = some c → Defined C functions table (x.inner c))
    (o : Fields α) (ps : List Property) (hps : ps ⊆ x.properties)
    (hnames : (ps.map (·.name)).Nodup) {locals : Locals α β} {reads : List (List Statement)}
    (hbound : ObjectsBound (s.classAt Target.factory.profile x) o
      (steps (s.classAt Target.factory.profile x)) locals)
    (hreads : (ps.map (Property.member Target.factory.profile x.names)).mapM
      (memberStatements table (objectTable (s.classAt Target.factory.profile x))) = some reads) :
    match decodeProperties denoted C x.names ps o with
    | none => runAll C functions locals reads.flatten = .error .nothing
    | some vs => ∃ locals', runAll C functions locals reads.flatten = .ok locals' ∧
        List.Forall₂ (fun p v => locals'.lookup (fieldLocal p.name) = some (.value v)) ps vs ∧
        ∀ name, (∀ p ∈ ps, name ≠ fieldLocal p.name) →
          locals'.lookup name = locals.lookup name := by
  induction ps generalizing locals reads with
  | nil =>
    obtain rfl : reads = [] := by simpa [eq_comm] using hreads
    exact ⟨locals, rfl, .nil, fun _ _ => rfl⟩
  | cons p ps ih =>
    obtain ⟨hp, hps⟩ := List.cons_subset.mp hps
    obtain ⟨hfresh, hnames⟩ := List.nodup_cons.mp hnames
    obtain ⟨read, rest, hread, hrest, rfl⟩ := Fallible.mapM_cons_eq_some_iff.mp hreads
    have hstores := stores_member s hx hchecked hp (hdefined p hp) hbound hread
    rw [decodeProperties, List.flatten_cons, runAll_append]
    cases hv : decodeProperty denoted C x.names p o with
    | none =>
      rw [hv] at hstores
      have hrun : runAll C functions locals read = .error .nothing := hstores
      rw [hrun]
      rfl
    | some v =>
      rw [hv] at hstores
      obtain ⟨locals', hrun, hvalue, hsame⟩ := hstores
      have hothers := ih hps hnames (hbound.of_sameBut hsame) hrest
      rw [hrun, Option.bind_some, Fallible.ok_bind]
      cases hvs : decodeProperties denoted C x.names ps o with
      | none => simpa [hvs] using hothers
      | some vs =>
        rw [hvs] at hothers
        obtain ⟨locals'', hrun', hvalues, hframe⟩ := hothers
        refine ⟨locals'', hrun', .cons ?_ hvalues, ?_⟩
        · rw [hframe _ fun q hq heq => hfresh ?_, hvalue]
          exact List.mem_map.mpr ⟨q, hq, (fieldLocal_injective heq).symm⟩
        · intro name hname
          obtain ⟨hne, hothers⟩ := List.forall_mem_cons.mp hname
          rw [hframe name hothers, hsame name hne]

/-- The construction finds the values in the order of the properties. -/
lemma mapM_value_arguments {locals : Locals α β} {ps : List Property} {vs : List (Value β)}
    (h : List.Forall₂ (fun p v => locals.lookup (fieldLocal p.name) = some (.value v)) ps vs) :
    ((ps.map (Property.member Target.factory.profile x.names)).map argument).mapM
      (fun a => locals.value a.source) = .ok vs := by
  induction h with
  | nil => rfl
  | cons hv _ ih =>
    have hvalue := Locals.value_eq_ok_iff.mpr hv
    rw [List.map_cons, List.map_cons, List.mapM_cons, ih]
    rw [argument, Property.member, hvalue]
    rfl

/-- The body of a class does what the schema says of it. -/
theorem runBody_classAt (s : Schema) (hx : x.names ≠ []) (hchecked : x.Checked true)
    (hdefined : ∀ p ∈ x.properties, ∀ c, p.nested = some c → Defined C functions table (x.inner c))
    {body : List Statement}
    (hbody : body? table (s.classAt Target.factory.profile x) = some body) (o : Fields α) :
    runBody C functions body o = .ofOption (decodeClass denoted C x o) := by
  obtain ⟨binds, hbinds, hbody⟩ := Option.bind_eq_some_iff.mp hbody
  obtain ⟨reads, hreads, hbody⟩ := Option.bind_eq_some_iff.mp hbody
  obtain rfl := Option.some.inj hbody
  obtain ⟨locals, hrun, hbound⟩ := objectsBound_steps (s.steps_classAt x) hbinds C functions o
  have hvalues := runAll_reads s hx hchecked hdefined o x.properties (List.Subset.refl _)
    hchecked.names hbound hreads
  rw [runBody_eq, List.append_assoc, runAll_append, hrun, Fallible.ok_bind, runAll_append]
  unfold decodeClass
  cases hvs : decodeProperties denoted C x.names x.properties o with
  | none =>
    rw [hvs] at hvalues
    simp only at hvalues
    rw [hvalues]
    rfl
  | some vs =>
    rw [hvs] at hvalues
    obtain ⟨locals', hrun', hfields, _⟩ := hvalues
    have harguments := @mapM_value_arguments _ _ x _ _ _ hfields
    rw [hrun', Fallible.ok_bind, runAll_singleton, step]
    simp only [Schema.classAt, Schema.classModel, harguments]
    rfl

end

end BeanForge.Decoding
