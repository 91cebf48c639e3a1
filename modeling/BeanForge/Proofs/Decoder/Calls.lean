import BeanForge.Proofs.Agreement.Renderings
import BeanForge.Proofs.ScopeNames
/-!
# Parse functions and their calls

A factory has one parse function for each nested class, and a body calls, for each property with a
class, the function that is made for this class and stands further up. Functions are looked up by
the joined names of their class, so two classes whose names join to the same text share the name of
their functions: `parseFunctions_linked` says that this is the only way in which names can clash,
and `ColonsApart` excludes it.
-/
namespace BeanForge

namespace Decoder

/-- The local that a call fills, and the function that it calls. -/
def Statement.call? : Statement → Option (String × String)
  | parse field _ _ function | appendParsed field _ _ function => some (field, function)
  | bind .. | require .. | scalar .. | declareDefault .. | declareList .. | appendScalars ..
  | construct .. => none

def calls (body : List Statement) : List (String × String) :=
  body.filterMap Statement.call?

/-- A call for a property that declares a class: it fills the local of the property with what a
function finds that is made for this class. -/
def CallsOwn (made : List (Scope × DecodeFunction)) (x : Scope) (p : Property)
    (call : String × String) : Prop :=
  call.1 = fieldLocal p.name ∧
    ∃ c f, p.nested = some c ∧ (x.inner c, f) ∈ made ∧ call.2 = f.name

/-- The parse function that is made from the class of a scope. -/
structure MadeFrom (s : Schema) (x : Scope) (f : DecodeFunction) : Prop where
  result : f.result = Text.join "::" x.names
  name : lastOf (functionTable (s.model .factory).root.nested) (Text.join "::" x.names) =
    some f.name
  body : body? (functionTable (s.model .factory).root.nested)
    (s.classAt Target.factory.profile x) = some f.body

/-- The functions of a schema, as they stand in the source: one for each nested class, which is
made from it, and a last one for the root class. Each calls one function for each property with a
class, and this one stands before it. -/
structure Linked (s : Schema) (fs : List DecodeFunction) (entry : DecodeFunction) : Prop where
  functions : parseFunctions? (s.model .factory) = some fs
  last : entryFunction? (s.model .factory) = some entry
  written : Written (s.model .factory) fs entry
  made : List.Forall₂ (MadeFrom s) s.nestedScopes fs
  calls : ∀ before x f after, s.nestedScopes.zip fs = before ++ (x, f) :: after →
    List.Forall₂ (CallsOwn before x) (x.properties.filter Property.isClass) (calls f.body)
  lastCalls : List.Forall₂ (CallsOwn (s.nestedScopes.zip fs) s.rootScope)
    (s.properties.filter Property.isClass) (Decoder.calls entry.body)

/-- To read a property takes a call if the property has a class, and none otherwise. -/
lemma calls_readStatements {table : List (String × String)} {m : Member} {j : JsonSource}
    {object : String} {reads : List Statement}
    (hreads : readStatements table m j object = some reads) :
    if isParsed j.shape then
      ∃ f, lastOf table m.nestedType = some f ∧ calls reads = [(fieldLocal m.name, f)]
    else calls reads = [] := by
  unfold readStatements at hreads
  cases hshape : j.shape <;> rw [hshape] at hreads
  case simple | array =>
    obtain rfl := Option.some.inj hreads
    cases j.optional <;> rfl
  case object | objectArray =>
    obtain ⟨f, hf, hmade⟩ := Option.bind_eq_some_iff.mp hreads
    obtain rfl := Option.some.inj hmade
    refine ⟨f, hf, ?_⟩
    cases j.optional <;> rfl

/-- A call for a property that declares a class, with the function that a table has for it. -/
def CallsFound (table : List (String × String)) (names : List String) (p : Property)
    (call : String × String) : Prop :=
  call.1 = fieldLocal p.name ∧
    ∃ c, p.nested = some c ∧ lastOf table (qualify names c.name) = some call.2

/-- To read all properties takes one call for each that has a class, in the same order. -/
lemma calls_reads {table : List (String × String)} {objects : List (List String × String)}
    {names : List String} {ps : List Property} (hbound : ∀ p ∈ ps, ∃ b, p.binding = some b)
    {reads : List (List Statement)}
    (hreads : (ps.map (Property.member Target.factory.profile names)).mapM
      (memberStatements table objects) = some reads) :
    List.Forall₂ (CallsFound table names) (ps.filter Property.isClass) (calls reads.flatten) := by
  induction ps generalizing reads with
  | nil =>
    obtain rfl : reads = [] := by simpa [eq_comm] using hreads
    exact .nil
  | cons p ps ih =>
    obtain ⟨⟨b, hb⟩, hps⟩ := List.forall_mem_cons.mp hbound
    obtain ⟨read, rest, hread, hrest, rfl⟩ := Fallible.mapM_cons_eq_some_iff.mp hreads
    have hjson : (p.member Target.factory.profile names).json = some (p.jsonSource b) := by
      simp [Property.member, Target.profile, hb]
    rw [memberStatements, hjson] at hread
    obtain ⟨object, _, hread⟩ := Option.bind_eq_some_iff.mp hread
    have hcalls := calls_readStatements hread
    have hparsed : isParsed (p.jsonSource b).shape ↔ p.isClass :=
      Schema.isParsed_ofProperty_iff p.isClass p.isList
    have happend : calls (read ++ rest.flatten) = calls read ++ calls rest.flatten :=
      List.filterMap_append ..
    rw [List.flatten_cons, happend]
    by_cases hclass : p.isClass
    · rw [if_pos (hparsed.mpr hclass)] at hcalls
      obtain ⟨f, hf, hcall⟩ := hcalls
      obtain ⟨c, hc⟩ := Option.isSome_iff_exists.mp hclass
      have htype : (p.member Target.factory.profile names).nestedType = qualify names c.name := by
        simp [Property.member, Property.className?, hc]
      rw [List.filter_cons_of_pos hclass, hcall, List.singleton_append]
      exact .cons ⟨rfl, c, hc, htype ▸ hf⟩ (ih hps hrest)
    · rw [if_neg (mt hparsed.mp hclass)] at hcalls
      rw [List.filter_cons_of_neg hclass, hcalls, List.nil_append]
      exact ih hps hrest

/-- The calls of a body are those that read its properties. -/
lemma calls_body {table : List (String × String)} (s : Schema) {x : Scope}
    (hchecked : x.Checked true) {body : List Statement}
    (hbody : body? table (s.classAt Target.factory.profile x) = some body) :
    List.Forall₂ (CallsFound table x.names) (x.properties.filter Property.isClass)
      (calls body) := by
  obtain ⟨binds, hbinds, hbody⟩ := Option.bind_eq_some_iff.mp hbody
  obtain ⟨reads, hreads, hbody⟩ := Option.bind_eq_some_iff.mp hbody
  obtain rfl := Option.some.inj hbody
  have hnone : binds.filterMap Statement.call? = [] :=
    filterMap_binds _ (fun _ _ _ => rfl) hbinds
  have hcalls := calls_reads (hchecked.bound rfl) hreads
  rw [calls] at hcalls ⊢
  rw [List.filterMap_append, List.filterMap_append, hnone, List.nil_append]
  exact (List.append_nil _).symm ▸ hcalls

/-- What is found in the table is what is made, as long as the functions of the classes in a scope
are at hand. -/
lemma CallsFound.own {table : List (String × String)} {made : List (Scope × DecodeFunction)}
    {x : Scope} (hx : x.names ≠ [])
    (hmade : ∀ y f, (y, f) ∈ made → lastOf table (Text.join "::" y.names) = some f.name)
    (hinner : ∀ p ∈ x.properties, ∀ c, p.nested = some c → ∃ f, (x.inner c, f) ∈ made)
    {p : Property} (hp : p ∈ x.properties) {call : String × String}
    (h : CallsFound table x.names p call) : CallsOwn made x p call := by
  obtain ⟨hlocal, c, hc, hfound⟩ := h
  obtain ⟨f, hf⟩ := hinner p hp c hc
  have hown := hmade _ _ hf
  rw [Scope.inner, ← Schema.qualify_eq_join hx, hfound] at hown
  exact ⟨hlocal, c, f, hc, hf, Option.some.inj hown⟩

lemma callsOwn_body {table : List (String × String)} {made : List (Scope × DecodeFunction)}
    (s : Schema) {x : Scope} (hx : x.names ≠ []) (hchecked : x.Checked true)
    (hmade : ∀ y f, (y, f) ∈ made → lastOf table (Text.join "::" y.names) = some f.name)
    (hinner : ∀ p ∈ x.properties, ∀ c, p.nested = some c → ∃ f, (x.inner c, f) ∈ made)
    {body : List Statement}
    (hbody : body? table (s.classAt Target.factory.profile x) = some body) :
    List.Forall₂ (CallsOwn made x) (x.properties.filter Property.isClass) (calls body) := by
  have hmem : ∀ p ∈ x.properties.filter Property.isClass, p ∈ x.properties :=
    fun p hp => List.mem_of_mem_filter hp
  have hboth := (List.forall₂_and_left _ _).mpr ⟨hmem, calls_body s hchecked hbody⟩
  exact hboth.imp fun p call h => h.2.own hx hmade hinner h.1

end Decoder

namespace Schema

open Decoder

lemma forall₂_madeFrom (s : Schema) {fs : List DecodeFunction}
    (hfs : parseFunctions? (s.model .factory) = some fs) :
    List.Forall₂ (MadeFrom s) s.nestedScopes fs := by
  have hall : List.Forall₂ (fun x f =>
      parseFunction? (functionTable (s.model .factory).root.nested)
        (s.classAt Target.factory.profile x) = some f) s.nestedScopes fs := by
    rw [parseFunctions?] at hfs
    have hfound := Fallible.forall₂_of_mapM_eq_some hfs
    -- The table comes from the same classes, which are to be rewritten in the list only.
    generalize functionTable (s.model .factory).root.nested = table at hfound ⊢
    rwa [nested_root_model, List.forall₂_map_left_iff] at hfound
  refine hall.imp fun x f hf => ?_
  obtain ⟨name, body, hname, hbody, rfl⟩ := parseFunction?_eq_some_iff.mp hf
  exact ⟨rfl, hname, hbody⟩

/-- A parse function calls functions that stand before it. -/
lemma callsOwn_of_split (s : Schema) (hchecked : ∀ x ∈ s.scopes, x.Checked true)
    {fs : List DecodeFunction} (hmade : List.Forall₂ (MadeFrom s) s.nestedScopes fs)
    {before after : List (Scope × DecodeFunction)} {x : Scope} {f : DecodeFunction}
    (hsplit : s.nestedScopes.zip fs = before ++ (x, f) :: after) :
    List.Forall₂ (CallsOwn before x) (x.properties.filter Property.isClass) (calls f.body) := by
  have hmem : (x, f) ∈ s.nestedScopes.zip fs :=
    hsplit ▸ List.mem_append_right _ List.mem_cons_self
  have hx : x ∈ s.scopes := List.mem_append_left _ (List.of_mem_zip hmem).1
  have hscopes : s.nestedScopes = before.map Prod.fst ++ x :: after.map Prod.fst := by
    rw [← List.map_fst_zip hmade.length_eq.le, hsplit, List.map_append, List.map_cons]
  have hbody := (List.forall₂_zip hmade hmem).body
  -- What is declared in the scope has its function before the split, as children come first.
  refine callsOwn_body s (s.names_ne_nil hx) (hchecked x hx) ?_ ?_ hbody
  · intro y g hg
    have hzip : (y, g) ∈ s.nestedScopes.zip fs := hsplit ▸ List.mem_append_left _ hg
    exact (List.forall₂_zip hmade hzip).name
  · intro p hp c hc
    have hinner := Property.childrenFirst_scopesBelow _ _ _ _ _ hscopes p hp c hc
    obtain ⟨⟨_, g⟩, hg, rfl⟩ := List.mem_map.mp hinner
    exact ⟨g, hg⟩

/-- The function for the root class calls parse functions. -/
lemma callsOwn_entry (s : Schema) (hchecked : ∀ x ∈ s.scopes, x.Checked true)
    {fs : List DecodeFunction} (hmade : List.Forall₂ (MadeFrom s) s.nestedScopes fs)
    {entry : DecodeFunction} (hentry : entryFunction? (s.model .factory) = some entry) :
    List.Forall₂ (CallsOwn (s.nestedScopes.zip fs) s.rootScope)
      (s.properties.filter Property.isClass) (calls entry.body) := by
  have hroot : s.rootScope ∈ s.scopes := List.mem_append_right _ List.mem_cons_self
  obtain ⟨body, hbody, hentry⟩ := Option.bind_eq_some_iff.mp hentry
  obtain rfl := Option.some.inj hentry
  rw [root_model] at hbody
  refine callsOwn_body s (s.names_ne_nil hroot) (hchecked _ hroot)
    (fun y g hg => (List.forall₂_zip hmade hg).name) ?_ hbody
  intro p hp c hc
  have hinner := s.inner_mem_nestedScopes hroot hp hc
  rw [← List.map_fst_zip hmade.length_eq.le] at hinner
  obtain ⟨⟨_, g⟩, hg, hfst⟩ := List.mem_map.mp hinner
  exact ⟨g, hfst ▸ hg⟩

/-- The functions of a schema whose properties can all be decoded are linked. -/
theorem exists_linked (s : Schema) (hchecked : ∀ x ∈ s.scopes, x.Checked true) :
    ∃ fs entry, Linked s fs entry := by
  obtain ⟨hfs, hentry⟩ := (complete_iff_functions _).mp s.complete_model
  obtain ⟨fs, hfs⟩ := Option.isSome_iff_exists.mp hfs
  obtain ⟨entry, hentry⟩ := Option.isSome_iff_exists.mp hentry
  have hmade := s.forall₂_madeFrom hfs
  refine ⟨fs, entry, hfs, hentry, Decoder.written rfl hfs hentry, hmade, ?_, ?_⟩
  · exact fun before x f after hsplit => s.callsOwn_of_split hchecked hmade hsplit
  · exact s.callsOwn_entry hchecked hmade hentry

/-- Parse functions share their name only if their classes share the joined name. -/
theorem nodup_names_parseFunctions?_iff (s : Schema) {fs : List DecodeFunction}
    (hfs : parseFunctions? (s.model .factory) = some fs) :
    (fs.map (·.name)).Nodup ↔ (s.nestedScopes.map fun x => Text.join "::" x.names).Nodup := by
  have hkeys : List.Forall₂ (fun key name =>
      lastOf (functionTable (s.model .factory).root.nested) key = some name)
      (s.nestedScopes.map fun x => Text.join "::" x.names) (fs.map (·.name)) := by
    rw [List.forall₂_map_left_iff, List.forall₂_map_right_iff]
    exact (s.forall₂_madeFrom hfs).imp fun _ _ hmade => hmade.name
  have hunique : Relator.BiUnique fun key name =>
      lastOf (functionTable (s.model .factory).root.nested) key = some name :=
    ⟨fun _ _ _ ha hb => key_eq_of_lastOf (nodup_names_functionTable _) ha hb,
      fun _ _ _ ha hb => Option.some.inj (ha.symm.trans hb)⟩
  exact (List.rel_nodup hunique hkeys).symm

end Schema

namespace Document

open Decoder

/-- The functions of a document that is accepted for a decoder are linked. Their names are
different exactly if the joined names of the nested classes are, and so if in each scope no class
name goes on with a colon where another ends. -/
theorem parseFunctions_linked {d : Document} {s : Schema} (h : d.check .factory = .ok s) :
    ∃ fs entry, Linked s fs entry ∧
      ((fs.map (·.name)).Nodup ↔ (s.nestedScopes.map fun x => Text.join "::" x.names).Nodup) ∧
      ((∀ x ∈ s.scopes, x.ColonsApart) → (fs.map (·.name)).Nodup) := by
  obtain ⟨fs, entry, hlinked⟩ := s.exists_linked (checked_scopes h)
  have hnodup := s.nodup_names_parseFunctions?_iff hlinked.functions
  refine ⟨fs, entry, hlinked, hnodup, fun hcolons => hnodup.mpr ?_⟩
  exact s.nodup_join_nestedScopes fun x hx => (hcolons x hx).separated (nodup_classNames h x hx)

/-- The two functions of a trip have different names. -/
theorem parseFunctions_linked_trip :
    (∀ x ∈ (tripDocument.typed .factory).scopes, x.ColonsApart) ∧
    ∃ fs entry, Linked (tripDocument.typed .factory) fs entry ∧ (fs.map (·.name)).Nodup :=
  have hcheck : tripDocument.check .factory = .ok (tripDocument.typed .factory) := rfl
  have hcolons : ∀ x ∈ (tripDocument.typed .factory).scopes, x.ColonsApart := by decide
  have ⟨fs, entry, hlinked, _, hnodup⟩ := parseFunctions_linked hcheck
  ⟨hcolons, fs, entry, hlinked, hnodup hcolons⟩

/-- A document in which a class is called like one that is declared in another class. -/
def colonsDocument : Document where
  name := some "D"
  moduleName := some "m"
  source := some "json"
  properties := some [
    { name := some "a", typeName := some "class", access := some "r", className := some "A::B",
      jsonPath := some "a", properties := some [] },
    { name := some "b", typeName := some "class", access := some "r", className := some "A",
      jsonPath := some "b",
      properties := some [
        { name := some "c", typeName := some "class", access := some "r", className := some "B",
          jsonPath := some "c", properties := some [] }] }]

/-- Two functions of this document have the same name, so that the call for the first property
does not say which of them it means. -/
theorem parseFunctions_colonsDocument :
    ∃ s fs entry, colonsDocument.check .factory = .ok s ∧
      parseFunctions? (s.model .factory) = some fs ∧
      entryFunction? (s.model .factory) = some entry ∧
      fs.map (·.name) = ["parse_1_B", "parse_1_B", "parse_2_A"] ∧
      calls entry.body = [("field_a", "parse_1_B"), ("field_b", "parse_2_A")] :=
  ⟨_, _, _, rfl, rfl, rfl, rfl, rfl⟩

end Document

end BeanForge
