import BeanForge.Proofs.Agreement.Positions
/-!
# The code of a class comes from its own declarations

If two schemas differ in the declarations of one class, then so do their models, and in nothing
else but the two things that are said of all declarations at once. Above the class its tree is put
in the place of the other one, and what the classes around it say of themselves stays the same.
-/
namespace BeanForge

/-- Two lists of declarations that differ in those of the class at a position only, which are `old`
in the first and `new` in the second. -/
inductive DifferAt (old new : List Property) : List ℕ → List Property → List Property → Prop
  | here : DifferAt old new [] old new
  | inside {position : List ℕ} {ps qs : List Property} (before after : List Property)
      (p : Property) (name : String) (h : DifferAt old new position ps qs) :
      DifferAt old new ((before.filterMap (·.nested)).length :: position)
        (before ++ { p with nested := some ⟨name, ps⟩ } :: after)
        (before ++ { p with nested := some ⟨name, qs⟩ } :: after)

namespace ClassModel

/-- A class tree with another one at a position below it. -/
def replaceAt : ClassModel → List ℕ → ClassModel → ClassModel
  | _, [], new => new
  | c, i :: position, new =>
    { c with classes := c.classes.modify i fun d => d.replaceAt position new }

/-- What a class says of itself, without the classes declared in it. -/
def own (c : ClassModel) : ClassModel :=
  { c with classes := [] }

lemma eq_of_own {c d : ClassModel} (hown : c.own = d.own) (hclasses : c.classes = d.classes) :
    c = d := by
  cases c
  cases d
  simp_all [own]

lemma modify_append_cons {α : Type} (before after : List α) (c : α) (f : α → α) :
    (before ++ c :: after).modify before.length f = before ++ f c :: after := by
  simp [List.modify_eq_take_cons_drop]

variable (c new : ClassModel) {position other : List ℕ}

/-- Classes neither above nor below the position stay the same. -/
lemma at?_replaceAt_of_apart (hbelow : ¬ position <+: other) (habove : ¬ other <+: position) :
    (c.replaceAt position new).at? other = c.at? other := by
  induction position generalizing c other with
  | nil => exact absurd List.nil_prefix hbelow
  | cons i position ih =>
    cases other with
    | nil => exact absurd List.nil_prefix habove
    | cons j other =>
      rw [at?, at?, replaceAt, List.getElem?_modify]
      by_cases hij : i = j
      · subst hij
        rw [List.cons_prefix_cons] at hbelow habove
        cases c.classes[i]? with
        | none => rfl
        | some d => simpa using ih d (by simpa using hbelow) (by simpa using habove)
      · cases c.classes[j]? <;> simp [hij]

/-- The classes above the position have the other tree below them. -/
lemma at?_replaceAt_of_above (h : other <+: position) :
    (c.replaceAt position new).at? other =
      (c.at? other).map fun d => d.replaceAt (position.drop other.length) new := by
  induction other generalizing c position with
  | nil => rfl
  | cons j other ih =>
    obtain ⟨rest, rfl⟩ := h
    rw [List.cons_append, at?, at?, replaceAt, List.getElem?_modify]
    cases c.classes[j]? with
    | none => rfl
    | some d => simpa using ih d (List.prefix_append other rest)

lemma own_replaceAt (h : position ≠ []) : (c.replaceAt position new).own = c.own := by
  cases position with
  | nil => exact absurd rfl h
  | cons i position => rfl

/-- What a class says of itself is changed at the position and below it only. -/
lemma map_own_at?_replaceAt (h : ¬ position <+: other) :
    ((c.replaceAt position new).at? other).map own = (c.at? other).map own := by
  by_cases habove : other <+: position
  · have hrest : position.drop other.length ≠ [] := by
      intro hnil
      obtain ⟨rest, rfl⟩ := habove
      have hempty : rest = [] := by simpa using hnil
      exact h (by simp [hempty])
    rw [at?_replaceAt_of_above c new habove, Option.map_map]
    congr 1
    funext d
    exact own_replaceAt d new hrest
  · rw [at?_replaceAt_of_apart c new h habove]

end ClassModel

namespace Schema

variable {s t : Schema} (hname : t.name = s.name) (hmodule : t.moduleName = s.moduleName)
  (profile : Profile)

include hname hmodule

/-- Of a schema, a class takes over its name and its module. -/
lemma classModel_congr : t.classModel profile = s.classModel profile := by
  unfold classModel
  rw [hname, hmodule]

lemma nestedClasses_congr (names : List String) (ps : List Property) :
    t.nestedClasses profile names ps = s.nestedClasses profile names ps := by
  induction ps using Property.scope_induction generalizing names with
  | nil => rfl
  | cons p ps ihp ihps =>
    rw [nestedClasses, nestedClasses, ihps]
    obtain ⟨_, _, _, _, _ | ⟨name, qs⟩, _⟩ := p
    · rfl
    · rw [nestedClass?, nestedClass?, ihp ⟨name, qs⟩ rfl, classModel_congr hname hmodule]

lemma classAt_congr (x : Scope) : t.classAt profile x = s.classAt profile x := by
  rw [classAt, classAt, classModel_congr hname hmodule, nestedClasses_congr hname hmodule]

end Schema

/-- Two models that differ in the class at a position only: in its members, in the classes declared
in it, in whether it is constant and in its plan. Which headers are needed and whether there is a
list is said of all declarations. -/
structure ChangedAt (position : List ℕ) (m m' : Model) : Prop where
  replaced : ∃ c c', m.root.at? position = some c ∧ m'.root.at? position = some c' ∧
    c' = { c with
      members := c'.members, classes := c'.classes, isConst := c'.isConst, plan := c'.plan } ∧
    m' = { m with
      includes := m'.includes, hasList := m'.hasList, root := m.root.replaceAt position c' }
  own : ∀ other, ¬ position <+: other →
    (m'.root.at? other).map ClassModel.own = (m.root.at? other).map ClassModel.own
  apart : ∀ other, ¬ position <+: other → ¬ other <+: position →
    m'.root.at? other = m.root.at? other

namespace Schema

/-- What a class says of itself does not depend on the declarations inside its classes. -/
lemma own_classAt_inside (s : Schema) (profile : Profile) (names : List String)
    (before after : List Property) (p : Property) (name : String) (ps qs : List Property) :
    (s.classAt profile ⟨names, before ++ { p with nested := some ⟨name, qs⟩ } :: after⟩).own =
      (s.classAt profile ⟨names, before ++ { p with nested := some ⟨name, ps⟩ } :: after⟩).own := by
  have hmember : Property.member profile names { p with nested := some ⟨name, qs⟩ } =
      Property.member profile names { p with nested := some ⟨name, ps⟩ } := rfl
  simp only [ClassModel.own, classAt, classModel, Property.allConst, Property.boundPaths,
    List.map_append, List.map_cons, hmember, List.all_append, List.all_cons, List.filterMap_append,
    List.filterMap_cons]

/-- The scopes at the position have the same names and the declarations that differ, and the class
of the one takes the place of that of the other. -/
lemma classAt_of_differAt (s : Schema) (profile : Profile) {old new : List Property}
    {position : List ℕ} {ps qs : List Property} (h : DifferAt old new position ps qs)
    {names : List String} (hnames : names ≠ []) :
    ∃ inner, (⟨names, ps⟩ : Scope).at? position = some ⟨inner, old⟩ ∧
      (⟨names, qs⟩ : Scope).at? position = some ⟨inner, new⟩ ∧
      s.classAt profile ⟨names, qs⟩ =
        (s.classAt profile ⟨names, ps⟩).replaceAt position (s.classAt profile ⟨inner, new⟩) := by
  induction h generalizing names with
  | here => exact ⟨names, rfl, rfl, rfl⟩
  | @inside position ps qs before after p name _ ih =>
    obtain ⟨inner, hold, hnew, heq⟩ := @ih (names ++ [name]) (by simp)
    refine ⟨inner, ?_, ?_, ?_⟩
    · simpa [Scope.at?, Scope.classes, Scope.inner] using hold
    · simpa [Scope.at?, Scope.classes, Scope.inner] using hnew
    · refine ClassModel.eq_of_own ?_ ?_
      · rw [ClassModel.own_replaceAt _ _ (List.cons_ne_nil _ _)]
        exact s.own_classAt_inside profile names before after p name ps qs
      -- Of the classes declared here, only the one that follows those of `before` is another.
      · have hclasses : ∀ us, (⟨names, before ++ { p with nested := some ⟨name, us⟩ } :: after⟩ :
            Scope).classes = before.filterMap (·.nested) ++
              ⟨name, us⟩ :: after.filterMap (·.nested) := by
          simp [Scope.classes]
        rw [ClassModel.replaceAt, classes_classAt s profile hnames,
          classes_classAt s profile hnames, hclasses, hclasses, List.map_append, List.map_append,
          List.map_cons, List.map_cons, ← List.length_map, ClassModel.modify_append_cons]
        simp only [Scope.inner, heq]

/-- A model changes with the declarations of a class at the place of this class only. -/
theorem model_changedAt {s t : Schema} (hname : t.name = s.name)
    (hmodule : t.moduleName = s.moduleName) {old new : List Property} {position : List ℕ}
    (h : DifferAt old new position s.properties t.properties) (target : Target) :
    ChangedAt position (s.model target) (t.model target) := by
  obtain ⟨inner, hold, hnew, heq⟩ :=
    s.classAt_of_differAt target.profile h (List.cons_ne_nil s.name [])
  have hs : (s.model target).root.at? position = some (s.classAt target.profile ⟨inner, old⟩) := by
    rw [at?_root_model, rootScope, hold, Option.map_some]
  have ht : (t.model target).root = s.classAt target.profile ⟨[s.name], t.properties⟩ := by
    rw [root_model, classAt_congr hname hmodule, rootScope, hname]
  have hroot : (t.model target).root =
      (s.model target).root.replaceAt position (s.classAt target.profile ⟨inner, new⟩) := by
    rw [ht, heq, root_model, rootScope]
  refine ⟨⟨_, s.classAt target.profile ⟨inner, new⟩, hs, ?_, rfl, ?_⟩, ?_, ?_⟩
  · rw [ht, at?_classAt s target.profile (List.cons_ne_nil _ _), hnew, Option.map_some]
  · rw [← hroot]
    rfl
  · intro other hbelow
    rw [hroot]
    exact ClassModel.map_own_at?_replaceAt _ _ hbelow
  · intro other hbelow habove
    rw [hroot]
    exact ClassModel.at?_replaceAt_of_apart _ _ hbelow habove

/-- A schema with a class inside a class. -/
def lineSchema (stop : List Property) : Schema :=
  let code : Property := ⟨"code", "QString", .const, false, none, some ⟨"code", false⟩⟩
  let stop : Property := ⟨"stop", classType, .const, false, some ⟨"Stop", stop⟩,
    some ⟨"at.stop", true⟩⟩
  let leg : Property := ⟨"leg", classType, .const, false, some ⟨"Leg", [stop]⟩,
    some ⟨"leg", false⟩⟩
  ⟨"Line", "transit", [code, leg]⟩

/-- Neither a list nor a property that can be written, in the innermost class, is seen by the
classes around it. -/
theorem model_changedAt_stop :
    let old : List Property := [⟨"name", "QString", .const, false, none, some ⟨"name", false⟩⟩]
    let new : List Property := [⟨"times", "QTime", .readWrite, true, none, some ⟨"times", false⟩⟩]
    DifferAt old new [0, 0] (lineSchema old).properties (lineSchema new).properties ∧
      ChangedAt [0, 0] ((lineSchema old).model .factory) ((lineSchema new).model .factory) ∧
      ((lineSchema old).model .factory).includes = [] ∧
      ((lineSchema new).model .factory).includes = ["QJsonArray"] := by
  intro old new
  have hstop := @DifferAt.inside old new _ _ _ [] []
    ⟨"stop", classType, .const, false, none, some ⟨"at.stop", true⟩⟩ "Stop" .here
  have hleg := DifferAt.inside [⟨"code", "QString", .const, false, none, some ⟨"code", false⟩⟩] []
    ⟨"leg", classType, .const, false, none, some ⟨"leg", false⟩⟩ "Leg" hstop
  exact ⟨hleg, @model_changedAt (lineSchema old) (lineSchema new) rfl rfl _ _ _ hleg .factory,
    rfl, rfl⟩

end Schema

end BeanForge
