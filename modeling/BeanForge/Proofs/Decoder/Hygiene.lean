import BeanForge.Proofs.Decoder.Calls
/-!
# Locals of decoding functions

What a key or a property is called must not change which object a statement of a decoder means.
`Hygienic` says so of the body of a function: each object has a local of its own, everything is
declared once and before it is used, and no local is a name that the decoder keeps for something
else. `decoder_hygienic` shows it for all functions of an accepted document.

Objects are found in a table that is made for the whole plan before the first statement, so that
the table alone would allow a use before the declaration. That there is none comes from the order
of the plan: after some steps, exactly the objects that are reachable by them are bound.
-/
namespace BeanForge.Decoder

/-- Statements that use only what is at hand before them or declared by an earlier one. -/
def ClosedAfter (objects fields : List String) (body : List Statement) : Prop :=
  ∀ before s after, body = before ++ s :: after →
    (∀ o ∈ s.objects, o ∈ objects ++ boundObjects before) ∧
      ∀ f ∈ s.fields, f ∈ fields ++ declaredLocals before

section

variable {objects fields : List String}

lemma boundObjects_append (xs ys : List Statement) :
    boundObjects (xs ++ ys) = boundObjects xs ++ boundObjects ys :=
  List.filterMap_append ..

lemma declaredLocals_append (xs ys : List Statement) :
    declaredLocals (xs ++ ys) = declaredLocals xs ++ declaredLocals ys :=
  List.filterMap_append ..

@[simp] lemma closedAfter_nil : ClosedAfter objects fields [] := by
  intro before s after h
  simp at h

/-- The first statement uses what is at hand, and what it declares is at hand for the others. -/
@[simp] lemma closedAfter_cons_iff {s : Statement} {rest : List Statement} :
    ClosedAfter objects fields (s :: rest) ↔
      ((∀ o ∈ s.objects, o ∈ objects) ∧ ∀ f ∈ s.fields, f ∈ fields) ∧
        ClosedAfter (objects ++ boundObjects [s]) (fields ++ declaredLocals [s]) rest := by
  constructor
  · intro h
    refine ⟨?_, ?_⟩
    · simpa [boundObjects, declaredLocals] using h [] s rest rfl
    · rintro before t after rfl
      have ht := h (s :: before) t after rfl
      rwa [← List.singleton_append, boundObjects_append, declaredLocals_append,
        ← List.append_assoc, ← List.append_assoc] at ht
  · rintro ⟨hs, hrest⟩ before t after h
    rcases List.cons_eq_append_iff.mp h with ⟨rfl, ht⟩ | ⟨before, rfl, ht⟩
    · obtain ⟨rfl, _⟩ := List.cons.inj ht
      simpa [boundObjects, declaredLocals] using hs
    · have ht := hrest before t after ht
      rwa [List.append_assoc, List.append_assoc, ← boundObjects_append,
        ← declaredLocals_append] at ht

lemma ClosedAfter.append {xs ys : List Statement} (hxs : ClosedAfter objects fields xs)
    (hys : ClosedAfter (objects ++ boundObjects xs) (fields ++ declaredLocals xs) ys) :
    ClosedAfter objects fields (xs ++ ys) := by
  induction xs generalizing objects fields with
  | nil => simpa [boundObjects, declaredLocals] using hys
  | cons s xs ih =>
    rw [closedAfter_cons_iff] at hxs
    rw [List.cons_append, closedAfter_cons_iff]
    refine ⟨hxs.1, ih hxs.2 ?_⟩
    rwa [List.append_assoc, List.append_assoc, ← boundObjects_append, ← declaredLocals_append]

end

/-- The locals of the objects that steps look up, numbered from an index on. -/
def stepLocals (plan : List Lookup) (first : ℕ) : List String :=
  (plan.zipIdx first).map fun p => objectLocal p.2 p.1.key

section

variable {c : ClassModel} {paths : List String}

/-- No two objects are found under the same segments. -/
lemma nodup_keys_objectTable (hplan : steps c = decodePlan paths) :
    ((objectTable c).map Prod.fst).Nodup := by
  rw [keys_objectTable, hplan, List.nodup_cons]
  refine ⟨fun hmem => ?_, nodup_segments_decodePlan paths⟩
  have hlength := ((mem_segments_decodePlan paths _).mp hmem).1
  simp at hlength

lemma lastOf_eq_some_iff {κ ν : Type} [BEq κ] [LawfulBEq κ] {table : List (κ × ν)}
    (hkeys : (table.map Prod.fst).Nodup) {key : κ} {v : ν} :
    lastOf table key = some v ↔ (key, v) ∈ table := by
  refine ⟨mem_of_lastOf, fun hmem => ?_⟩
  have hfound : (lastOf table key).isSome :=
    (isSome_lastOf_iff table key).mpr (List.mem_map_of_mem hmem)
  obtain ⟨w, hw⟩ := Option.isSome_iff_exists.mp hfound
  have heq : ((key, w) : κ × ν) = (key, v) :=
    List.inj_on_of_nodup_map hkeys (mem_of_lastOf hw) hmem rfl
  rw [hw, (Prod.mk.inj heq).2]

/-- The object of the step at an index has the local with this number. -/
lemma lastOf_segments (hplan : steps c = decodePlan paths) {l : Lookup} {i : ℕ}
    (hl : (l, i) ∈ (steps c).zipIdx) :
    lastOf (objectTable c) l.segments = some (objectLocal i l.key) :=
  (lastOf_eq_some_iff (nodup_keys_objectTable hplan)).mpr
    (List.mem_cons_of_mem _ (List.mem_map.mpr ⟨(l, i), hl, rfl⟩))

/-- What is reachable after some steps is the document or bound by one of these steps. -/
lemma mem_stepLocals_of_reachable (hplan : steps c = decodePlan paths) {before after : List Lookup}
    (hsteps : steps c = before ++ after) {segments : List String}
    (hreach : Reachable before segments) {object : String}
    (hobject : lastOf (objectTable c) segments = some object) :
    object ∈ rootLocal :: stepLocals before 0 := by
  rcases hreach with rfl | hmem
  · have hroot : lastOf (objectTable c) [JsonPath.rootSegment] = some rootLocal :=
      (lastOf_eq_some_iff (nodup_keys_objectTable hplan)).mpr List.mem_cons_self
    rw [Option.some.inj (hobject.symm.trans hroot)]
    exact List.mem_cons_self
  · obtain ⟨l, hl, rfl⟩ := List.mem_map.mp hmem
    obtain ⟨i, hi, rfl⟩ := List.mem_iff_getElem.mp hl
    have hindex : (before[i], i) ∈ before.zipIdx := List.mk_mem_zipIdx_iff_getElem?.mpr (by simp)
    have hplace : (before[i], i) ∈ (steps c).zipIdx := by
      rw [hsteps, List.zipIdx_append]
      exact List.mem_append_left _ hindex
    rw [lastOf_segments hplan hplace] at hobject
    rw [← Option.some.inj hobject]
    exact List.mem_cons_of_mem _ (List.mem_map.mpr ⟨_, hindex, rfl⟩)

/-- The statements for the steps of a plan bind the objects in order, each from one bound before.
The steps before them are arbitrary, so that the induction can go through the plan. -/
lemma closedAfter_binds (hplan : steps c = decodePlan paths) {fields : List String}
    {before after : List Lookup} (hsteps : steps c = before ++ after) {binds : List Statement}
    (hbinds : after.mapM (bindStatement (objectTable c)) = some binds) :
    boundObjects binds = stepLocals after before.length ∧
      declaredLocals binds = stepLocals after before.length ∧
      ClosedAfter (rootLocal :: stepLocals before 0) fields binds := by
  induction after generalizing before binds fields with
  | nil =>
    obtain rfl : binds = [] := by simpa [eq_comm] using hbinds
    exact ⟨rfl, rfl, closedAfter_nil⟩
  | cons l after ih =>
    obtain ⟨s, rest, hs, hrest, rfl⟩ := Fallible.mapM_cons_eq_some_iff.mp hbinds
    obtain ⟨own, parent, hown, hparent, rfl⟩ := bindStatement_eq_some_iff.mp hs
    have hplace : (l, before.length) ∈ (steps c).zipIdx :=
      List.mk_mem_zipIdx_iff_getElem?.mpr (by simp [hsteps])
    obtain rfl : objectLocal before.length l.key = own :=
      Option.some.inj ((lastOf_segments hplan hplace).symm.trans hown)
    have hreach := reachable_parents_of_decodePlan (hplan ▸ hsteps)
    have hbound := mem_stepLocals_of_reachable hplan hsteps hreach hparent
    have hlocals : stepLocals (before ++ [l]) 0 =
        stepLocals before 0 ++ [objectLocal before.length l.key] := by
      simp [stepLocals, List.zipIdx_append]
    have hnext : steps c = (before ++ [l]) ++ after := by simp [hsteps]
    obtain ⟨hobjects, hdeclared, hclosed⟩ :=
      @ih (fields ++ [objectLocal before.length l.key]) (before ++ [l]) hnext rest hrest
    rw [List.length_append] at hobjects hdeclared
    refine ⟨congrArg _ hobjects, congrArg _ hdeclared, closedAfter_cons_iff.mpr ⟨?_, ?_⟩⟩
    · simpa [Statement.objects, Statement.fields] using hbound
    · rwa [hlocals] at hclosed

end

def Uses (block : List Statement) (object : String) : Prop :=
  ∃ s ∈ block, object ∈ s.objects

/-- A block of statements that declares one local and fills it from one object. -/
structure Fills (field object : String) (block : List Statement) : Prop where
  objects : ∀ o, Uses block o ↔ o = object
  bound : boundObjects block = []
  declared : declaredLocals block = [field]
  closed : ∀ objects fields, object ∈ objects → ClosedAfter objects fields block

/-- The statements that read a property fill its local from the object that they are given. -/
lemma fills_readStatements {table : List (String × String)} {m : Member} {j : JsonSource}
    {object : String} {reads : List Statement}
    (hreads : readStatements table m j object = some reads) :
    Fills (fieldLocal m.name) object reads := by
  unfold readStatements at hreads
  cases hshape : j.shape <;> rw [hshape] at hreads
  case simple | array =>
    obtain rfl := Option.some.inj hreads
    cases j.optional <;> refine ⟨?_, rfl, rfl, ?_⟩ <;>
      simp +contextual [Uses, Statement.objects, Statement.fields, declaredLocals,
        Statement.declared?]
  case object | objectArray =>
    obtain ⟨f, _, hmade⟩ := Option.bind_eq_some_iff.mp hreads
    obtain rfl := Option.some.inj hmade
    cases j.optional <;> refine ⟨?_, rfl, rfl, ?_⟩ <;>
      simp +contextual [Uses, Statement.objects, Statement.fields, declaredLocals,
        Statement.declared?]

/-- The statements for a property: they fill its local from the object that its segments lead to. -/
def ReadFrom (objects : List (List String × String)) (m : Member) (block : List Statement) : Prop :=
  ∃ j object, m.json = some j ∧ lastOf objects j.parents = some object ∧
    Fills (fieldLocal m.name) object block

lemma readFrom_of_memberStatements {table : List (String × String)}
    {objects : List (List String × String)} {m : Member} (hjson : m.json.isSome)
    {block : List Statement} (h : memberStatements table objects m = some block) :
    ReadFrom objects m block := by
  obtain ⟨j, hj⟩ := Option.isSome_iff_exists.mp hjson
  rw [memberStatements, hj] at h
  obtain ⟨object, hobject, hreads⟩ := Option.bind_eq_some_iff.mp h
  exact ⟨j, object, hj, hobject, fills_readStatements hreads⟩

/-- The blocks of all properties declare one local each, in order, and read from the objects of
the table. -/
lemma closedAfter_blocks {table : List (List String × String)} {fields : List String}
    {members : List Member} {blocks : List (List Statement)}
    (h : List.Forall₂ (ReadFrom table) members blocks) :
    boundObjects blocks.flatten = [] ∧
      declaredLocals blocks.flatten = members.map (fun m => fieldLocal m.name) ∧
      ClosedAfter (table.map Prod.snd) fields blocks.flatten := by
  induction h generalizing fields with
  | nil => exact ⟨rfl, rfl, closedAfter_nil⟩
  | @cons m block members blocks hread _ ih =>
    obtain ⟨j, object, _, hobject, hfills⟩ := hread
    have hmem : object ∈ table.map Prod.snd := List.mem_map_of_mem (mem_of_lastOf hobject)
    obtain ⟨hbound, hdeclared, hclosed⟩ := @ih (fields ++ [fieldLocal m.name])
    rw [List.flatten_cons, boundObjects_append, declaredLocals_append, hfills.bound,
      hfills.declared, hbound, hdeclared]
    refine ⟨rfl, rfl, (hfills.closed _ _ hmem).append ?_⟩
    rwa [hfills.bound, hfills.declared, List.append_nil]

/-- The locals of a class: one for each object of its plan, then one for each property. -/
def classLocals (c : ClassModel) : List String :=
  stepLocals (steps c) 0 ++ c.members.map fun m => fieldLocal m.name

/-- The body of a function in which no key and no name changes what a local stands for. -/
structure Hygienic (functions : List String) (c : ClassModel) (body : List Statement) : Prop where
  /-- Different segments lead to objects in different locals. -/
  objects : ∀ a b object, lastOf (objectTable c) a = some object →
    (lastOf (objectTable c) b = some object ↔ a = b)
  /-- Each property is read from the object of its segments, so that two properties share their
  object exactly if they share these, into a local that is declared once before the value is
  constructed. -/
  reads : ∃ binds blocks, body = binds ++ blocks.flatten ++
      [.construct c.nestedName (c.members.map argument)] ∧
    List.Forall₂ (ReadFrom (objectTable c)) c.members blocks ∧
    (∀ p ∈ c.members.zip blocks, ∀ q ∈ c.members.zip blocks,
      (∃ o, Uses p.2 o ∧ Uses q.2 o) ↔
        p.1.json.map (·.parents) = q.1.json.map (·.parents)) ∧
    ∀ a ∈ c.members.map argument, (declaredLocals (binds ++ blocks.flatten)).count a.source = 1
  closed : Closed body
  locals : declaredLocals body = classLocals c
  distinct : (rootLocal :: elementLocal :: parsedLocal :: declaredLocals body).Nodup
  apart : ∀ f ∈ functions, f ∉ rootLocal :: elementLocal :: parsedLocal :: declaredLocals body

section

variable (c : ClassModel)

lemma values_objectTable :
    (objectTable c).map Prod.snd = rootLocal :: stepLocals (steps c) 0 := by
  simp [objectTable, stepLocals]

lemma cases_of_mem_classLocals {a : String} (h : a ∈ classLocals c) :
    (∃ i key, a = objectLocal i key) ∨ ∃ name, a = fieldLocal name := by
  rcases List.mem_append.mp h with h | h
  · obtain ⟨p, _, rfl⟩ := List.mem_map.mp h
    exact .inl ⟨p.2, p.1.key, rfl⟩
  · obtain ⟨m, _, rfl⟩ := List.mem_map.mp h
    exact .inr ⟨m.name, rfl⟩

lemma nodup_classLocals (hnames : (c.members.map (·.name)).Nodup) : (classLocals c).Nodup := by
  have hobjects := nodup_locals_objectTable c
  rw [values_objectTable, List.nodup_cons] at hobjects
  have hfields : (c.members.map fun m => fieldLocal m.name).Nodup := by
    simpa [Function.comp_def] using hnames.map fun _ _ => fieldLocal_injective
  refine List.nodup_append.mpr ⟨hobjects.2, hfields, ?_⟩
  intro a ha b hb
  obtain ⟨p, _, rfl⟩ := List.mem_map.mp ha
  obtain ⟨m, _, rfl⟩ := List.mem_map.mp hb
  exact (fieldLocal_ne_objectLocal _ _ _).symm

/-- The names that a decoder keeps go on with a word where those of objects have a number. -/
lemma exists_word_of_mem_kept {a : String} (h : a ∈ [rootLocal, elementLocal, parsedLocal]) :
    ∃ word, a = "json_" ++ word ∧ ∀ d ∈ word.toList.head?, d.isDigit = false := by
  simp only [List.mem_cons, List.not_mem_nil, or_false] at h
  rcases h with rfl | rfl | rfl
  · exact ⟨"root", rfl, by simp⟩
  · exact ⟨"value", rfl, by simp⟩
  · exact ⟨"parsed", rfl, by simp⟩

/-- The locals of a body and the names that a decoder keeps are different from each other. -/
lemma nodup_locals (hnames : (c.members.map (·.name)).Nodup) :
    (rootLocal :: elementLocal :: parsedLocal :: classLocals c).Nodup := by
  have hkept : [rootLocal, elementLocal, parsedLocal].Nodup := by decide
  refine List.nodup_append.mpr ⟨hkept, nodup_classLocals c hnames, ?_⟩
  intro a ha b hb heq
  obtain ⟨word, rfl, hword⟩ := exists_word_of_mem_kept ha
  rcases cases_of_mem_classLocals c hb with ⟨i, key, rfl⟩ | ⟨name, rfl⟩
  · exact objectLocal_ne_word hword i key heq.symm
  · simpa [fieldLocal] using congrArg String.toList heq

/-- A parse function is not called like a local. -/
lemma functionName_not_mem (i : ℕ) (name : String) :
    functionName i name ∉ rootLocal :: elementLocal :: parsedLocal :: classLocals c := by
  intro (hmem : functionName i name ∈ [rootLocal, elementLocal, parsedLocal] ++ classLocals c)
  have hlead : ∃ lead ∈ ["json_", "field_"], ∃ rest, functionName i name = lead ++ rest := by
    rcases List.mem_append.mp hmem with h | h
    · obtain ⟨word, hword, _⟩ := exists_word_of_mem_kept h
      exact ⟨"json_", by simp, word, hword⟩
    · rcases cases_of_mem_classLocals c h with ⟨j, key, h⟩ | ⟨field, h⟩
      · exact ⟨"json_", by simp, toString j ++ "_" ++ Text.identifier key, by
          rw [h, objectLocal]; simp [String.append_assoc]⟩
      · exact ⟨"field_", by simp, field, h⟩
  obtain ⟨lead, hlead, rest, heq⟩ := hlead
  have hlist := congrArg String.toList heq
  simp only [List.mem_cons, List.not_mem_nil, or_false] at hlead
  rcases hlead with rfl | rfl <;> simp [functionName] at hlist

/-- Two blocks use one object exactly if the same segments lead to their properties. -/
lemma ReadFrom.shared_iff {m m' : Member} {block block' : List Statement}
    (h : ReadFrom (objectTable c) m block) (h' : ReadFrom (objectTable c) m' block') :
    (∃ o, Uses block o ∧ Uses block' o) ↔ m.json.map (·.parents) = m'.json.map (·.parents) := by
  obtain ⟨j, object, hj, hobject, hfills⟩ := h
  obtain ⟨j', object', hj', hobject', hfills'⟩ := h'
  simp only [hfills.objects, hfills'.objects, hj, hj', Option.map_some, Option.some.injEq,
    exists_eq_left]
  constructor
  · rintro rfl
    exact key_eq_of_lastOf (nodup_locals_objectTable c) hobject hobject'
  · intro hparents
    rw [hparents] at hobject
    exact Option.some.inj (hobject.symm.trans hobject')

end

/-- The parts of a body: it binds objects, reads properties and constructs a value. Only the last
statement is left out of what is said of declarations. -/
lemma body_parts {c : ClassModel} {paths : List String} (hplan : steps c = decodePlan paths)
    (hjson : ∀ m ∈ c.members, m.json.isSome) {table : List (String × String)}
    {body : List Statement} (hbody : body? table c = some body) :
    ∃ binds blocks, body = binds ++ blocks.flatten ++
        [.construct c.nestedName (c.members.map argument)] ∧
      List.Forall₂ (ReadFrom (objectTable c)) c.members blocks ∧
      declaredLocals (binds ++ blocks.flatten) = classLocals c ∧
      ClosedAfter [rootLocal] [] (binds ++ blocks.flatten) := by
  obtain ⟨binds, hbinds, hbody⟩ := Option.bind_eq_some_iff.mp hbody
  obtain ⟨blocks, hblocks, hbody⟩ := Option.bind_eq_some_iff.mp hbody
  obtain rfl := Option.some.inj hbody
  have hread : List.Forall₂ (ReadFrom (objectTable c)) c.members blocks := by
    have hboth := (List.forall₂_and_left _ _).mpr
      ⟨hjson, Fallible.forall₂_of_mapM_eq_some hblocks⟩
    exact hboth.imp fun m block h => readFrom_of_memberStatements h.1 h.2
  obtain ⟨hbound, hdeclared, hbinds⟩ :=
    @closedAfter_binds c paths hplan [] [] (steps c) rfl binds hbinds
  obtain ⟨_, hfields, hblocks⟩ := @closedAfter_blocks _ (declaredLocals binds) _ _ hread
  rw [values_objectTable] at hblocks
  refine ⟨binds, blocks, rfl, hread, ?_, hbinds.append ?_⟩
  · rw [declaredLocals_append, hdeclared, hfields]
    rfl
  · rwa [hbound]

/-- A class with the plan of its properties, whose names differ, has a hygienic body. -/
theorem hygienic_body {c : ClassModel} {paths : List String} (hplan : steps c = decodePlan paths)
    (hnames : (c.members.map (·.name)).Nodup) (hjson : ∀ m ∈ c.members, m.json.isSome)
    {table : List (String × String)} {body : List Statement} (hbody : body? table c = some body)
    {functions : List String} (hfunctions : ∀ f ∈ functions, ∃ i name, f = functionName i name) :
    Hygienic functions c body := by
  obtain ⟨binds, blocks, rfl, hread, hlocals, hclosed⟩ := body_parts hplan hjson hbody
  have hbody : declaredLocals (binds ++ blocks.flatten ++
      [.construct c.nestedName (c.members.map argument)]) = classLocals c := by
    rw [declaredLocals_append, hlocals]
    exact List.append_nil _
  have hnodup := nodup_locals c hnames
  have hfields : ∀ a ∈ c.members.map argument, a.source ∈ classLocals c := by
    intro a ha
    obtain ⟨m, hm, rfl⟩ := List.mem_map.mp ha
    exact List.mem_append_right _ (List.mem_map_of_mem hm)
  refine ⟨?_, ⟨binds, blocks, rfl, hread, ?_, ?_⟩, ⟨?_, hclosed.append ?_⟩, hbody, ?_, ?_⟩
  · intro a b object ha
    refine ⟨fun hb => key_eq_of_lastOf (nodup_locals_objectTable c) ha hb, ?_⟩
    rintro rfl
    exact ha
  · intro p hp q hq
    exact (List.forall₂_zip hread hp).shared_iff c (List.forall₂_zip hread hq)
  · intro a ha
    rw [hlocals]
    exact List.count_eq_one_of_mem hnodup.of_cons.of_cons.of_cons (hfields a ha)
  · rw [hbody]
    exact hnodup.sublist (by simp)
  · refine closedAfter_cons_iff.mpr ⟨⟨by simp [Statement.objects], ?_⟩, closedAfter_nil⟩
    intro f hf
    obtain ⟨a, ha, rfl⟩ := List.mem_map.mp hf
    rw [List.nil_append, hlocals]
    exact hfields a ha
  · rwa [hbody]
  · intro f hf
    obtain ⟨i, name, rfl⟩ := hfunctions f hf
    rw [hbody]
    exact functionName_not_mem c i name

/-- What is found in the table of functions has a number. -/
lemma exists_functionName {classes : List ClassModel} {key name : String}
    (h : lastOf (functionTable classes) key = some name) :
    ∃ i className, name = functionName i className := by
  obtain ⟨p, _, hp⟩ := List.mem_map.mp (mem_of_lastOf h)
  exact ⟨p.2, p.1.name, (Prod.mk.inj hp).2.symm⟩

end BeanForge.Decoder

namespace BeanForge

open Decoder

lemma Schema.hygienic_classAt (s : Schema) {x : Scope} (hchecked : x.Checked true)
    {table : List (String × String)} {body : List Statement}
    (hbody : body? table (s.classAt Target.factory.profile x) = some body)
    {functions : List String} (hfunctions : ∀ f ∈ functions, ∃ i name, f = functionName i name) :
    Hygienic functions (s.classAt Target.factory.profile x) body := by
  refine hygienic_body (s.steps_classAt x) ?_ ?_ hbody hfunctions
  · have hnames : (s.classAt Target.factory.profile x).members.map (·.name) =
        x.properties.map (·.name) := by
      simp [classAt, classModel, Property.member, Function.comp_def]
    rw [hnames]
    exact hchecked.names
  · intro m hm
    obtain ⟨p, hp, rfl⟩ := List.mem_map.mp hm
    obtain ⟨b, hb⟩ := hchecked.bound rfl p hp
    simp [Property.member, Target.profile, hb]

/-- The functions of a decoder stand in the order of its classes, and the body of each is
hygienic. -/
theorem Document.decoder_hygienic {d : Document} {s : Schema} (h : d.check .factory = .ok s) :
    ∃ fs entry, parseFunctions? (s.model .factory) = some fs ∧
      entryFunction? (s.model .factory) = some entry ∧
      Written (s.model .factory) fs entry ∧
      List.Forall₂ (fun c f => f.result = c.nestedName ∧ Hygienic (fs.map (·.name)) c f.body)
        (s.model .factory).root.postorder (fs ++ [entry]) := by
  have hchecked := checked_scopes h
  obtain ⟨hfs, hentry⟩ := (complete_iff_functions _).mp s.complete_model
  obtain ⟨fs, hfs⟩ := Option.isSome_iff_exists.mp hfs
  obtain ⟨entry, hentry⟩ := Option.isSome_iff_exists.mp hentry
  have hmade := s.forall₂_madeFrom hfs
  have hnames : ∀ f ∈ fs.map (·.name), ∃ i name, f = functionName i name := by
    intro _ hname
    obtain ⟨f, hf, rfl⟩ := List.mem_map.mp hname
    rw [← List.map_snd_zip hmade.length_eq.ge] at hf
    obtain ⟨⟨x, _⟩, hzip, rfl⟩ := List.mem_map.mp hf
    exact exists_functionName (List.forall₂_zip hmade hzip).name
  have hscopes : ∀ x ∈ s.nestedScopes, x.Checked true :=
    fun x hx => hchecked x (List.mem_append_left _ hx)
  have hnested := (List.forall₂_and_left _ _).mpr ⟨hscopes, hmade⟩
  refine ⟨fs, entry, hfs, hentry, written rfl hfs hentry, ?_⟩
  rw [s.postorder_model, List.forall₂_map_left_iff]
  refine List.rel_append (hnested.imp fun x f hx => ?_) (.cons ?_ .nil)
  · exact ⟨hx.2.result, s.hygienic_classAt hx.1 hx.2.body hnames⟩
  · obtain ⟨body, hbody, hmake⟩ := Option.bind_eq_some_iff.mp hentry
    obtain rfl := Option.some.inj hmake
    rw [Schema.root_model] at hbody
    refine ⟨rfl, s.hygienic_classAt (hchecked _ ?_) hbody hnames⟩
    exact List.mem_append_right _ List.mem_cons_self

/-- A document whose keys and names read like the locals of a decoder, and two of whose keys give
the same identifier. -/
def awkwardDocument : Document where
  name := some "Doc"
  moduleName := some "app"
  source := some "json"
  properties := some [
    { name := some "value", typeName := some "int", access := some "c", isList := true,
      jsonPath := some "a-b/values" },
    { name := some "json_root", typeName := some "int", access := some "c",
      jsonPath := some "a_b/root", jsonOptional := true },
    { name := some "parsed", typeName := some "class", access := some "c",
      className := some "Parsed", jsonPath := some "a-b/parsed",
      properties := some [
        { name := some "json_value", typeName := some "QString", access := some "c",
          jsonPath := some "0_a/v" }] }]

/-- The two functions of this document are hygienic; these are their locals. -/
theorem Document.decoder_hygienic_awkward :
    let m := (awkwardDocument.typed .factory).model .factory
    awkwardDocument.check .factory = .ok (awkwardDocument.typed .factory) ∧
    (∃ fs entry, parseFunctions? m = some fs ∧ entryFunction? m = some entry ∧
      Written m fs entry ∧
      List.Forall₂ (fun c f => f.result = c.nestedName ∧ Hygienic (fs.map (·.name)) c f.body)
        m.root.postorder (fs ++ [entry])) ∧
    m.root.postorder.map classLocals =
      [["json_0_0_a", "field_json_value"],
        ["json_0_a_b", "json_1_a_b", "field_value", "field_json_root", "field_parsed"]] :=
  have hcheck : awkwardDocument.check .factory = .ok (awkwardDocument.typed .factory) := rfl
  ⟨hcheck, Document.decoder_hygienic hcheck, rfl⟩

end BeanForge
