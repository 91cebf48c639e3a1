import BeanForge.Model.Json
import BeanForge.Proofs.Fallible
import BeanForge.Proofs.Json.Reading
import BeanForge.Text.Indent
/-!
# Emitted models

An emitted model is read back as it was. A property is one object with the fields of up to three
records, so that it is essential that no two fields of an object have the same key: then each field
is found under its key, and what is left out is not mistaken for something else. Classes are read
by induction on the depth of the value, which bounds how deep classes are nested.
-/
namespace BeanForge

namespace Json

/-- If no two fields have the same key, each is found under its own. -/
lemma field?_of_mem {j : Json} (hkeys : (j.fields.map Prod.fst).Nodup) {key : String}
    {value : Json} (h : (key, value) ∈ j.fields) : j.field? key = some value := by
  rw [field?]
  generalize j.fields = fs at hkeys h
  induction fs with
  | nil => simp at h
  | cons field fs ih =>
    obtain ⟨hfresh, hkeys⟩ := List.nodup_cons.mp hkeys
    rcases List.mem_cons.mp h with rfl | h
    · exact List.lookup_cons_self
    · have hne : key ≠ field.1 := by
        rintro rfl
        exact hfresh (List.mem_map.mpr ⟨_, h, rfl⟩)
      rw [List.lookup_cons, beq_false_of_ne hne]
      exact ih hkeys h

lemma field?_eq_none {j : Json} {key : String} (h : key ∉ j.fields.map Prod.fst) :
    j.field? key = none := by
  rw [field?, List.lookup_eq_none_iff]
  intro field hfield
  exact bne_iff_ne.mpr fun heq => h (heq ▸ List.mem_map_of_mem hfield)

lemma optionalField?_eq {j : Json} {key : String} {value : Option String}
    (h : j.field? key = value.map .text) : j.optionalField? key = some value := by
  rw [optionalField?, h]
  cases value <;> rfl

lemma keys_optional_sublist (key : String) (value : Option String) :
    ((optional key value).map Prod.fst).Sublist [key] := by
  cases value with
  | none => exact List.nil_sublist _
  | some s => exact List.Sublist.refl _

@[simp] lemma texts?_texts (ss : List String) : (texts ss).texts? = some ss :=
  Fallible.mapM_map_eq_some fun _ _ => rfl

end Json

namespace Member

/-- The keys of a property, with those of its wrapper and of its place in JSON. -/
def keys : List String :=
  ["name", "access", "type", "nested_type", "member_type", "nested_member_type", "type_type",
    "getter"] ++ ["setter"] ++ ["initial_value", "setter_type", "setter_impl"] ++
  (["qt_type"] ++ ["qt_class"] ++ ["is_qt_object", "nested_name"]) ++
  ["json_path", "json_optional", "json_type", "json_prefix", "json_suffix",
    "json_conversion_method"]

lemma keys_toJson_sublist (m : Member) : (m.toJson.fields.map Prod.fst).Sublist keys := by
  have hsetter := Json.keys_optional_sublist "setter" m.setter
  have hqt : ((m.qt.elim [] QtView.jsonFields).map Prod.fst).Sublist
      (["qt_type"] ++ ["qt_class"] ++ ["is_qt_object", "nested_name"]) := by
    cases m.qt with
    | none => exact List.nil_sublist _
    | some q =>
      have hclass := Json.keys_optional_sublist "qt_class" q.wrapper
      simp only [Option.elim, QtView.jsonFields, List.map_append]
      exact ((List.Sublist.refl _).append hclass).append (List.Sublist.refl _)
  have hjson : ((m.json.elim [] JsonSource.jsonFields).map Prod.fst).Sublist
      ["json_path", "json_optional", "json_type", "json_prefix", "json_suffix",
        "json_conversion_method"] := by
    cases m.json with
    | none => exact List.nil_sublist _
    | some s => exact List.Sublist.refl _
  simp only [toJson, Json.fields, List.map_append]
  exact ((((List.Sublist.refl _).append hsetter).append (List.Sublist.refl _)).append hqt).append
    hjson

/-- The records that a property is emitted from have no key in common. -/
theorem nodup_keys_toJson (m : Member) : (m.toJson.fields.map Prod.fst).Nodup :=
  m.keys_toJson_sublist.nodup (by decide)


/-- Each field of a property is found under its key. -/
lemma field?_toJson (m : Member) {key : String} {value : Json}
    (h : (key, value) ∈ m.toJson.fields) : m.toJson.field? key = some value :=
  Json.field?_of_mem m.nodup_keys_toJson h

lemma field?_setter (m : Member) : m.toJson.field? "setter" = m.setter.map .text := by
  cases h : m.setter with
  | none =>
    refine Json.field?_eq_none ?_
    cases hqt : m.qt <;> cases hjson : m.json <;>
      simp [toJson, Json.fields, Json.optional, QtView.jsonFields, JsonSource.jsonFields, h, hqt,
        hjson]
  | some s => exact m.field?_toJson (by simp [toJson, Json.fields, Json.optional, h])

lemma field?_qtClass {m : Member} {q : QtView} (hq : m.qt = some q) :
    m.toJson.field? "qt_class" = q.wrapper.map .text := by
  cases h : q.wrapper with
  | none =>
    refine Json.field?_eq_none ?_
    cases hjson : m.json <;>
      simp [toJson, Json.fields, Json.optional, QtView.jsonFields, JsonSource.jsonFields, h, hq,
        hjson]
  | some s =>
    exact m.field?_toJson (by simp [toJson, Json.fields, Json.optional, QtView.jsonFields, h, hq])

/-- The first field of the record for a wrapper is there exactly if the record is. -/
lemma isSome_field?_qtType (m : Member) : (m.toJson.field? "qt_type").isSome = m.qt.isSome := by
  cases hqt : m.qt with
  | none =>
    rw [Json.field?_eq_none]
    · rfl
    · cases hjson : m.json <;>
        simp [toJson, Json.fields, Json.optional, JsonSource.jsonFields, hqt, hjson]
  | some q =>
    have htype : m.toJson.field? "qt_type" = some (.text q.type) :=
      m.field?_toJson (by simp [toJson, Json.fields, QtView.jsonFields, hqt])
    rw [htype]
    rfl

lemma isSome_field?_jsonPath (m : Member) :
    (m.toJson.field? "json_path").isSome = m.json.isSome := by
  cases hjson : m.json with
  | none =>
    rw [Json.field?_eq_none]
    · rfl
    · cases hqt : m.qt <;>
        simp [toJson, Json.fields, Json.optional, QtView.jsonFields, hqt, hjson]
  | some s =>
    have hpath : m.toJson.field? "json_path" = some (.text s.path) :=
      m.field?_toJson (by simp [toJson, Json.fields, JsonSource.jsonFields, hjson])
    rw [hpath]
    rfl

lemma ofJson?_qt {m : Member} {q : QtView} (hq : m.qt = some q) :
    QtView.ofJson? m.toJson = some q := by
  have hfields : ∀ field ∈ q.jsonFields, m.toJson.field? field.1 = some field.2 := by
    intro field hfield
    exact m.field?_toJson (by simp [toJson, Json.fields, hq, hfield])
  have hclass := Json.optionalField?_eq (field?_qtClass hq)
  simp only [QtView.jsonFields, List.forall_mem_append, List.forall_mem_cons] at hfields
  simp [QtView.ofJson?, Json.textField?, Json.boolField?, Json.text?, Json.bool?, hfields, hclass]

lemma ofJson?_json {m : Member} {s : JsonSource} (hs : m.json = some s) :
    JsonSource.ofJson? m.toJson = some s := by
  have hfields : ∀ field ∈ s.jsonFields, m.toJson.field? field.1 = some field.2 := by
    intro field hfield
    exact m.field?_toJson (by simp [toJson, Json.fields, hs, hfield])
  simp only [JsonSource.jsonFields, List.forall_mem_cons] at hfields
  simp [JsonSource.ofJson?, Json.textField?, Json.boolField?, Json.text?, Json.bool?, hfields]

/-- A property is read back, and so is what is left out of it. -/
theorem ofJson?_toJson (m : Member) : ofJson? m.toJson = some m := by
  have hsetter := Json.optionalField?_eq m.field?_setter
  have hqtType := m.isSome_field?_qtType
  have hjsonPath := m.isSome_field?_jsonPath
  have hqt : ∀ q, m.qt = some q → QtView.ofJson? m.toJson = some q := fun _ => ofJson?_qt
  have hjson : ∀ s, m.json = some s → JsonSource.ofJson? m.toJson = some s := fun _ => ofJson?_json
  obtain ⟨j, hj⟩ : ∃ j, m.toJson = j := ⟨_, rfl⟩
  have hfields : ∀ field ∈ m.toJson.fields, j.field? field.1 = some field.2 :=
    fun _ h => hj ▸ m.field?_toJson h
  simp only [toJson, Json.fields, List.forall_mem_append, List.forall_mem_cons] at hfields
  rw [hj] at hsetter hqtType hjsonPath hqt hjson ⊢
  obtain ⟨_, _, _, _, _, _, _, _, _, _, _, _, qt, json⟩ := m
  cases qt <;> cases json <;>
    simp [ofJson?, Json.textField?, Json.text?, hfields, hsetter, hqtType, hjsonPath, hqt, hjson]

end Member

lemma Lookup.ofJson?_toJson (l : Lookup) : Lookup.ofJson? l.toJson = some l := by
  simp [Lookup.ofJson?, Lookup.toJson, Json.field?, Json.fields, Json.textField?, Json.text?,
    List.lookup_cons]

namespace Json

lemma depth_le_depthItems {items : List Json} {item : Json} (h : item ∈ items) :
    item.depth ≤ depthItems items := by
  induction items with
  | nil => simp at h
  | cons first items ih =>
    rw [depthItems]
    rcases List.mem_cons.mp h with rfl | h
    · exact Nat.le_max_left _ _
    · exact Nat.le_trans (ih h) (Nat.le_max_right _ _)

lemma depth_le_depthFields {fs : List (String × Json)} {key : String} {value : Json}
    (h : (key, value) ∈ fs) : value.depth ≤ depthFields fs := by
  induction fs with
  | nil => simp at h
  | cons field fs ih =>
    rw [depthFields]
    rcases List.mem_cons.mp h with rfl | h
    · exact Nat.le_max_left _ _
    · exact Nat.le_trans (ih h) (Nat.le_max_right _ _)

/-- A value is deeper than what stands in it. -/
lemma depth_lt_of_mem_array {items : List Json} {item : Json} (h : item ∈ items) :
    item.depth < (array items).depth := by
  have hle := depth_le_depthItems h
  rw [depth]
  omega

lemma depth_lt_of_mem_fields {j : Json} {key : String} {value : Json}
    (h : (key, value) ∈ j.fields) : value.depth < j.depth := by
  cases j with
  | object fs =>
    have hle : value.depth ≤ depthFields fs := depth_le_depthFields h
    rw [depth]
    omega
  | _ => simp [fields] at h

end Json

namespace ClassModel

lemma toJsonAll_eq_map (cs : List ClassModel) : toJsonAll cs = cs.map toJson := by
  induction cs with
  | nil => rfl
  | cons c cs ih => rw [toJsonAll, ih, List.map_cons]

/-- The fields of a class. -/
lemma toJson_eq (c : ClassModel) :
    c.toJson = .object ([("name", .text c.name), ("module", .text c.moduleName),
      ("nested_name", .text c.nestedName), ("properties", .array (c.members.map Member.toJson)),
      ("classes", .array (c.classes.map toJson)), ("const", .bool c.isConst)] ++
      Json.optional "root_name" c.rootName ++
      (c.plan.map fun ls => ("json_tree", Json.array (ls.map Lookup.toJson))).toList) := by
  obtain ⟨_, _, _, _, _, _, _, _⟩ := c
  rw [toJson, toJsonAll_eq_map]

lemma planField?_toJson (c : ClassModel) : planField? c.toJson = some c.plan := by
  have hplan : c.toJson.field? "json_tree" =
      c.plan.map fun ls => Json.array (ls.map Lookup.toJson) := by
    rw [toJson_eq]
    cases c.rootName <;> cases c.plan <;>
      simp [Json.field?, Json.fields, Json.optional, List.lookup_cons]
  rw [planField?, hplan]
  cases c.plan with
  | none => rfl
  | some ls =>
    have hall : (ls.map Lookup.toJson).mapM Lookup.ofJson? = some ls :=
      Fallible.mapM_map_eq_some fun l _ => l.ofJson?_toJson
    simp [Json.array?, hall]

lemma depth_lt_of_mem {c d : ClassModel} (h : d ∈ c.classes) : d.toJson.depth < c.toJson.depth := by
  have hclasses : ("classes", Json.array (c.classes.map toJson)) ∈ c.toJson.fields := by
    simp [toJson_eq, Json.fields]
  have hitem := Json.depth_lt_of_mem_array (List.mem_map_of_mem (f := toJson) h)
  exact Nat.lt_trans hitem (Json.depth_lt_of_mem_fields hclasses)

/-- A class is read back if the reader may go as deep as its value is. -/
theorem ofJson?_toJson (c : ClassModel) (depth : ℕ) (hdepth : c.toJson.depth ≤ depth) :
    ofJson? depth c.toJson = some c := by
  induction depth generalizing c with
  | zero =>
    rw [toJson_eq, Json.depth] at hdepth
    omega
  | succ depth ih =>
    have hmembers : (c.members.map Member.toJson).mapM Member.ofJson? = some c.members :=
      Fallible.mapM_map_eq_some fun m _ => m.ofJson?_toJson
    have hclasses : (c.classes.map toJson).mapM (ofJson? depth) = some c.classes := by
      refine Fallible.mapM_map_eq_some fun d hd => ih d ?_
      have hlt := depth_lt_of_mem hd
      omega
    have hplan := c.planField?_toJson
    have hroot : c.toJson.optionalField? "root_name" = some c.rootName := by
      refine Json.optionalField?_eq ?_
      rw [toJson_eq]
      cases c.rootName <;> cases c.plan <;>
        simp [Json.field?, Json.fields, Json.optional, List.lookup_cons]
    rw [ofJson?, hplan, hroot, toJson_eq]
    obtain ⟨_, _, _, _, _, _, _, _⟩ := c
    simp [Json.field?, Json.fields, Json.textField?, Json.text?, Json.boolField?, Json.bool?,
      Json.array?, List.lookup_cons, hmembers, hclasses]

end ClassModel

namespace Model

/-- A model is read back from the object that it is emitted as. -/
theorem ofJson?_toJson (m : Model) : ofJson? m.toJson = some m := by
  have hroot : ClassModel.ofJson? m.toJson.depth m.root.toJson = some m.root := by
    have hfield : ("root", m.root.toJson) ∈ m.toJson.fields := by simp [toJson, Json.fields]
    exact m.root.ofJson?_toJson _ (Nat.le_of_lt (Json.depth_lt_of_mem_fields hfield))
  rw [ofJson?]
  generalize m.toJson.depth = depth at hroot ⊢
  simp [toJson, Json.field?, Json.fields, Json.textField?, Json.text?, Json.boolField?, Json.bool?,
    List.lookup_cons, hroot]

/-- The printed text of a model stands for this model, so that no two models have the same text. -/
theorem emit_readable :
    (∀ m : Model, (Json.parse? (Text.line m.emit)).bind ofJson? = some m) ∧
      Function.Injective emit := by
  have hread : ∀ m : Model, (Json.parse? (Text.line m.emit)).bind ofJson? = some m := by
    intro m
    rw [emit, Json.parse?_line_render]
    exact m.ofJson?_toJson
  refine ⟨hread, fun m m' hsame => ?_⟩
  have hmodel := hread m
  rw [hsame, hread m'] at hmodel
  exact (Option.some.inj hmodel).symm

end Model

end BeanForge
