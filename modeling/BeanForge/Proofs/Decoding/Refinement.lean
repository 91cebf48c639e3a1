import BeanForge.Proofs.Decoding.Properties
/-!
# The generated decoder against the schema

The functions of a factory are defined with children before parents, so that each calls only what
is there already, and a name that a later function takes is not one that an earlier function has:
then each function does what the schema says of its class, and so does the factory.
-/
namespace BeanForge.Decoding

open Decoder

variable {α β : Type}

lemma call_cons_of_ne {functions : Functions α β} {name new : String} (h : name ≠ new)
    (f : Fields α → Ending β) (o : Fields α) :
    call ((new, f) :: functions) name o = call functions name o := by
  rw [call, call, List.lookup_cons, beq_false_of_ne h]

section

variable {C : Conversion α β} {functions : Functions α β} {table : List (String × String)}

/-- A definition leaves the functions of other classes as they are. -/
lemma Defined.define_of_ne (htable : (table.map Prod.snd).Nodup) {x y : Scope}
    (hy : Defined C functions table y)
    (hne : Text.join "::" y.names ≠ Text.join "::" x.names) {f : DecodeFunction}
    (hf : lastOf table (Text.join "::" x.names) = some f.name) :
    Defined C (define C functions f) table y := by
  intro function hfunction o
  have hname : function ≠ f.name := by
    intro heq
    rw [heq] at hfunction
    exact hne (key_eq_of_lastOf htable hfunction hf)
  rw [define, call_cons_of_ne hname]
  exact hy function hfunction o

/-- The function of a class is defined as the schema says if those of the classes in it are. -/
lemma defined_define (s : Schema) {x : Scope} (hx : x.names ≠ []) (hchecked : x.Checked true)
    (hdefined : ∀ p ∈ x.properties, ∀ c, p.nested = some c → Defined C functions table (x.inner c))
    {f : DecodeFunction}
    (hf : parseFunction? table (s.classAt Target.factory.profile x) = some f) :
    Defined C (define C functions f) table x := by
  intro function hfunction o
  obtain ⟨name, body, hname, hbody, rfl⟩ := parseFunction?_eq_some_iff.mp hf
  obtain rfl : name = function := Option.some.inj (hname.symm.trans hfunction)
  refine call_eq_orNothing (List.lookup_cons_self ..) ?_
  exact runBody_classAt s hx hchecked hdefined hbody o

end

/-- Once all parse functions are defined, each does what the schema says of its class. -/
theorem defined_nestedScopes (C : Conversion α β) (s : Schema)
    (hchecked : ∀ x ∈ s.scopes, x.Checked true)
    (hnames : (s.nestedScopes.map fun x => Text.join "::" x.names).Nodup)
    {table : List (String × String)} (htable : (table.map Prod.snd).Nodup)
    {fs : List DecodeFunction}
    (hfs : (s.nestedScopes.map (s.classAt Target.factory.profile)).mapM (parseFunction? table) =
      some fs) :
    ∀ x ∈ s.nestedScopes, Defined C (fs.foldl (define C) []) table x := by
  have hmade := List.forall₂_map_left_iff.mp (Fallible.forall₂_of_mapM_eq_some hfs)
  refine (Property.childrenFirst_scopesBelow _ _).forall_foldl hnames (define C)
    (fun functions => Defined C functions table) ?_ ?_ [] hmade
  · intro functions x hx f hf hchildren
    have hmem : x ∈ s.scopes := List.mem_append_left _ hx
    exact defined_define s (s.names_ne_nil hmem) (hchecked x hmem) hchildren hf
  · intro functions x _ f hf y _ hne hy
    obtain ⟨name, body, hname, _, rfl⟩ := parseFunction?_eq_some_iff.mp hf
    exact hy.define_of_ne htable hne hname

/-- The factory does what the schema says, if keys are taken as their expressions denote them. -/
lemma runModel_eq_decode_denoted (C : Conversion α β) {d : Document} {s : Schema}
    (hd : d.check .factory = .ok s)
    (hnames : ((s.model .factory).root.nested.map (·.nestedName)).Nodup) (o : Fields α) :
    runModel C (s.model .factory) o = .ofOption (decode denoted C s o) := by
  have hchecked := Document.checked_scopes hd
  obtain ⟨hfs, hentry⟩ := (complete_iff_functions _).mp s.complete_model
  obtain ⟨fs, hfs⟩ := Option.isSome_iff_exists.mp hfs
  obtain ⟨entry, hentry⟩ := Option.isSome_iff_exists.mp hentry
  obtain ⟨body, hbody, heq⟩ := Option.bind_eq_some_iff.mp hentry
  obtain rfl := Option.some.inj heq
  have hmade := hfs
  rw [parseFunctions?, Schema.nested_root_model] at hmade
  rw [Schema.nested_root_model, List.map_map] at hnames
  rw [Schema.nested_root_model, Schema.root_model] at hbody
  have hdefined := defined_nestedScopes C s hchecked hnames (nodup_names_functionTable _) hmade
  have hroot : s.rootScope ∈ s.scopes := List.mem_append_right _ List.mem_cons_self
  rw [decode_eq_decodeClass, runModel, hfs, hentry]
  exact runBody_classAt s (s.names_ne_nil hroot) (hchecked _ hroot)
    (fun p hp c hc => hdefined _ (s.inner_mem_nestedScopes hroot hp hc)) hbody o

/-- The generated factory gives what the schema says on every object, provided that no two nested
classes have the same qualified name, with each declared key taken as the key that its expression
denotes. This is the declared key itself if it is made of narrow characters; a schema with no other
keys is decoded as it is declared. -/
theorem runModel_eq_decode (C : Conversion α β) {d : Document} {s : Schema}
    (hd : d.check .factory = .ok s)
    (hnames : ((s.model .factory).root.nested.map (·.nestedName)).Nodup) :
    (s.model .factory).Written ∧ (∀ key, denotedKey? (keyText key) = some (denoted key)) ∧
    (∀ o, runModel C (s.model .factory) o = .ofOption (decode denoted C s o)) ∧
    ((∀ x ∈ s.scopes, ∀ p ∈ x.properties, ∀ b ∈ p.binding, ∀ key ∈ JsonPath.segments b.path,
        ∀ c ∈ key.toList, Text.isNarrow c) →
      ∀ o, runModel C (s.model .factory) o = .ofOption (decode id C s o)) := by
  have hdenoted := runModel_eq_decode_denoted C hd hnames
  refine ⟨s.written _, denotedKey?_eq_some_denoted, hdenoted, fun hnarrow o => ?_⟩
  have hkeys : ∀ x ∈ s.scopes, AgreeOn denoted id x :=
    fun x hx p hp b hb key hkey => (denoted_eq_iff key).mpr (hnarrow x hx p hp b hb key hkey)
  have hroot : s.rootScope ∈ s.scopes := List.mem_append_right _ List.mem_cons_self
  rw [hdenoted, decode_eq_decodeClass, decode_eq_decodeClass, decodeClass_congr C s hkeys _ hroot]

/-- A document with a list of a nested class, an optional value, and values at some depth. -/
def orderDocument : Document where
  name := some "Order"
  moduleName := some "shop"
  source := some "json"
  properties := some [
    { name := some "number", typeName := some "int", access := some "c",
      jsonPath := some "head/number" },
    { name := some "discount", typeName := some "int", access := some "r",
      jsonPath := some "head/discount", jsonOptional := true },
    { name := some "lines", typeName := some "class", access := some "rw", isList := true,
      className := some "Line", jsonPath := some "body/lines",
      properties := some [
        { name := some "amount", typeName := some "int", access := some "rw",
          jsonPath := some "amount" }] }]

/-- Conversions to integers, as far as the values are integers. -/
def integerConversion : Conversion ℤ ℤ where
  convert _ found :=
    match found with
    | some (.plain n) => n
    | _ => 0
  default _ := 0
  convert_none _ _ _ := rfl

/-- An order is decoded with its lines, and not decoded if a line is not as it must be. -/
theorem runModel_order :
    runModel integerConversion ((orderDocument.typed .factory).model .factory)
        [("head", .object [("number", .plain 7)]),
          ("body", .object [("lines", .array [.object [("amount", .plain 2)]])])] =
      .returned (.record "Order"
        [.scalar 7, .scalar 0, .list [.record "Order::Line" [.scalar 2]]]) ∧
    runModel integerConversion ((orderDocument.typed .factory).model .factory)
        [("head", .object [("number", .plain 7)]),
          ("body", .object [("lines", .array [.object [("amount", .plain 2)], .plain 1])])] =
      .nothing :=
  have hall : ∀ x ∈ (orderDocument.typed .factory).scopes, ∀ p ∈ x.properties, ∀ b ∈ p.binding,
      ∀ key ∈ JsonPath.segments b.path, key.toList.all Text.isNarrow := by decide
  have hkeys : ∀ x ∈ (orderDocument.typed .factory).scopes, ∀ p ∈ x.properties, ∀ b ∈ p.binding,
      ∀ key ∈ JsonPath.segments b.path, ∀ c ∈ key.toList, Text.isNarrow c :=
    fun x hx p hp b hb key hkey => List.all_eq_true.mp (hall x hx p hp b hb key hkey)
  have ⟨_, _, _, hrun⟩ :=
    runModel_eq_decode integerConversion (d := orderDocument) (by rfl) (by decide)
  ⟨(hrun hkeys _).trans (by rfl), (hrun hkeys _).trans (by rfl)⟩

/-- A document with a key that is not narrow is not decoded as it is declared: the factory misses a
value that is there, and takes one that stands under another key. -/
theorem runModel_accentDocument :
    ∃ s, accentDocument.check .factory = .ok s ∧
      ((s.model .factory).root.nested.map (·.nestedName)).Nodup ∧
      decode id integerConversion s [("é", .plain 5)] = some (.record "D" [.scalar 5]) ∧
      runModel integerConversion (s.model .factory) [("é", .plain 5)] = .nothing ∧
      runModel integerConversion (s.model .factory) [("Ã©", .plain 5)] =
        .returned (.record "D" [.scalar 5]) :=
  ⟨_, rfl, by decide, by rfl, by rfl, by rfl⟩

end BeanForge.Decoding
