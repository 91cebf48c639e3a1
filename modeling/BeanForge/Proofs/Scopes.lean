import BeanForge.Model.OfSchema
import Mathlib.Data.List.Basic
import Mathlib.Data.List.Forall2
/-!
# Scopes of a schema and classes of its models

A scope is the list of properties of one class, together with the names of the classes around
it and its own. Every scope of a schema has one class in the model for a target, `Schema.classAt`
says which, and `postorder_model` that the classes of a model in postorder are those of the scopes
in the same order. What is said of all scopes can then be proved by following the declarations.
-/
namespace BeanForge

/-- The properties of a class, and the names of the classes that lead to it. -/
structure Scope where
  names : List String
  properties : List Property

/-- The scope of a class that is declared in another. -/
def Scope.inner (x : Scope) (c : NestedClass) : Scope :=
  ⟨x.names ++ [c.name], c.properties⟩

def Schema.rootScope (s : Schema) : Scope :=
  ⟨[s.name], s.properties⟩

namespace Property

/-- Induction over scopes: the first property brings the scope of its class. -/
@[elab_as_elim]
theorem scope_induction {motive : List Property → Prop} (nil : motive [])
    (cons : ∀ p ps, (∀ c, p.nested = some c → motive c.properties) → motive ps → motive (p :: ps))
    (ps : List Property) : motive ps := by
  refine Schema.hasList.induct (fun p => ∀ c, p.nested = some c → motive c.properties) motive
    ?_ ?_ nil cons ps
  · intro _ _ _ _ _ ps _ hps c heq
    exact Option.some.inj heq ▸ hps
  · intro _ _ _ _ _ c heq
    cases heq

mutual

/-- The scopes that a property opens, the inner ones first. -/
def scopesIn (names : List String) : Property → List Scope
  | ⟨_, _, _, _, some ⟨name, ps⟩, _⟩ =>
    scopesBelow (names ++ [name]) ps ++ [⟨names ++ [name], ps⟩]
  | ⟨_, _, _, _, none, _⟩ => []

/-- The scopes that several properties open, in order. -/
def scopesBelow (names : List String) : List Property → List Scope
  | [] => []
  | p :: ps => scopesIn names p ++ scopesBelow names ps

end

lemma scopesIn_eq (names : List String) (p : Property) :
    scopesIn names p = p.nested.elim [] fun c =>
      scopesBelow (names ++ [c.name]) c.properties ++ [⟨names ++ [c.name], c.properties⟩] := by
  obtain ⟨_, _, _, _, _ | ⟨_, _⟩, _⟩ := p <;> rfl

lemma inner_mem_scopesBelow {names : List String} {ps : List Property} {p : Property}
    {c : NestedClass} (hp : p ∈ ps) (hc : p.nested = some c) :
    (⟨names ++ [c.name], c.properties⟩ : Scope) ∈ scopesBelow names ps := by
  induction ps with
  | nil => simp at hp
  | cons q ps ih =>
    rw [scopesBelow, List.mem_append]
    rcases List.mem_cons.mp hp with rfl | hp
    · exact .inl (by simp [scopesIn_eq, hc])
    · exact .inr (ih hp)

/-- What goes over from a scope to the scopes it opens holds of all scopes below. -/
theorem forall_scopesBelow {P : Scope → Prop}
    (step : ∀ x, P x → ∀ p ∈ x.properties, ∀ c, p.nested = some c → P (x.inner c))
    {names : List String} {ps : List Property} (h : P ⟨names, ps⟩) :
    ∀ x ∈ scopesBelow names ps, P x := by
  have hgo : ∀ (qs : List Property) (x : Scope), P x → qs ⊆ x.properties →
      ∀ y ∈ scopesBelow x.names qs, P y := by
    intro qs
    induction qs using scope_induction with
    | nil => simp [scopesBelow]
    | cons q qs ihq ihqs =>
      intro x hx hsub y hy
      obtain ⟨hq, hqs⟩ := List.cons_subset.mp hsub
      rw [scopesBelow, scopesIn_eq, List.mem_append] at hy
      rcases hy with hy | hy
      · cases hc : q.nested with
        | none => simp [hc] at hy
        | some c =>
          have hinner := step x hx q hq c hc
          simp only [hc, Option.elim, List.mem_append, List.mem_singleton] at hy
          rcases hy with hy | rfl
          · exact ihq c hc (x.inner c) hinner (List.Subset.refl _) y hy
          · exact hinner
      · exact ihqs x hx hqs y hy
  exact hgo ps ⟨names, ps⟩ h (List.Subset.refl _)

/-- Every scope of a list comes after those that it opens. -/
def ChildrenFirst (scopes : List Scope) : Prop :=
  ∀ before x after, scopes = before ++ x :: after →
    ∀ p ∈ x.properties, ∀ c, p.nested = some c → x.inner c ∈ before

lemma ChildrenFirst.append {xs ys : List Scope} (hxs : ChildrenFirst xs)
    (hys : ChildrenFirst ys) : ChildrenFirst (xs ++ ys) := by
  intro before x after h p hp c hc
  rcases List.append_eq_append_iff.mp h with ⟨more, rfl, hmore⟩ | ⟨more, hmore, hrest⟩
  · exact List.mem_append_right xs (hys more x after hmore p hp c hc)
  · cases more with
    | nil => exact absurd (hys [] x after hrest.symm p hp c hc) List.not_mem_nil
    | cons y more =>
      obtain ⟨rfl, _⟩ := List.cons.inj hrest
      exact hxs before x more hmore p hp c hc

lemma ChildrenFirst.concat {xs : List Scope} {y : Scope} (hxs : ChildrenFirst xs)
    (hy : ∀ p ∈ y.properties, ∀ c, p.nested = some c → y.inner c ∈ xs) :
    ChildrenFirst (xs ++ [y]) := by
  intro before x after h p hp c hc
  rcases List.append_eq_append_iff.mp h with ⟨more, rfl, hmore⟩ | ⟨more, hmore, hrest⟩
  · cases more with
    | nil =>
      obtain ⟨rfl, _⟩ := List.cons.inj hmore
      simpa using hy p hp c hc
    | cons z more => simp at hmore
  · cases more with
    | nil =>
      obtain ⟨rfl, _⟩ := List.cons.inj hrest
      rw [List.append_nil] at hmore
      exact hmore ▸ hy p hp c hc
    | cons z more =>
      obtain ⟨rfl, _⟩ := List.cons.inj hrest
      exact hxs before x more hmore p hp c hc

/-- What holds of a scope once it holds of those that this one opens holds of all scopes. -/
theorem ChildrenFirst.forall {P : Scope → Prop} {scopes : List Scope} (h : ChildrenFirst scopes)
    (step : ∀ x ∈ scopes, (∀ p ∈ x.properties, ∀ c, p.nested = some c → P (x.inner c)) → P x) :
    ∀ x ∈ scopes, P x := by
  have hgo : ∀ after before, scopes = before ++ after → (∀ x ∈ before, P x) →
      ∀ x ∈ scopes, P x := by
    intro after
    induction after with
    | nil =>
      intro before hscopes hbefore
      rwa [hscopes, List.append_nil]
    | cons x after ih =>
      intro before hscopes hbefore
      have hx := step x (by simp [hscopes]) fun p hp c hc =>
        hbefore _ (h before x after hscopes p hp c hc)
      refine ih (before ++ [x]) (by simp [hscopes]) fun y hy => ?_
      rcases List.mem_append.mp hy with hy | hy
      · exact hbefore y hy
      · exact List.mem_singleton.mp hy ▸ hx
  exact hgo scopes [] rfl (by simp)

/-- A state that is built up from one thing for each scope becomes right for all scopes, if each
step makes it right for its own scope, once it is for those that this one opens, and leaves it right
for scopes with another key. -/
theorem ChildrenFirst.forall_foldl {κ σ τ : Type} {scopes : List Scope}
    (h : ChildrenFirst scopes) {key : Scope → κ} (hkeys : (scopes.map key).Nodup)
    {makes : Scope → τ → Prop} (add : σ → τ → σ) (Right : σ → Scope → Prop)
    (new : ∀ state, ∀ x ∈ scopes, ∀ made, makes x made →
      (∀ p ∈ x.properties, ∀ c, p.nested = some c → Right state (x.inner c)) →
        Right (add state made) x)
    (old : ∀ state, ∀ x ∈ scopes, ∀ made, makes x made → ∀ y ∈ scopes, key y ≠ key x →
      Right state y → Right (add state made) y)
    (start : σ) {all : List τ} (hall : List.Forall₂ makes scopes all) :
    ∀ x ∈ scopes, Right (all.foldl add start) x := by
  have hgo : ∀ (after before : List Scope) (rest : List τ) (state : σ),
      scopes = before ++ after → (∀ x ∈ before, Right state x) → List.Forall₂ makes after rest →
        ∀ x ∈ scopes, Right (rest.foldl add state) x := by
    intro after
    induction after with
    | nil =>
      intro before rest state hscopes hbefore hrest
      obtain rfl := List.forall₂_nil_left_iff.mp hrest
      rwa [hscopes, List.append_nil]
    | cons x after ih =>
      intro before rest state hscopes hbefore hrest
      obtain ⟨made, more, hmade, hmore, rfl⟩ := List.forall₂_cons_left_iff.mp hrest
      have hx : x ∈ scopes := by simp [hscopes]
      refine ih (before ++ [x]) more (add state made) (by simp [hscopes]) ?_ hmore
      intro y hy
      rcases List.mem_append.mp hy with hy | hy
      · rw [hscopes, List.map_append, List.map_cons, List.nodup_append] at hkeys
        have hne := hkeys.2.2 _ (List.mem_map_of_mem hy) _ List.mem_cons_self
        exact old state x hx made hmade y (by simp [hscopes, hy]) hne (hbefore y hy)
      · obtain rfl := List.mem_singleton.mp hy
        exact new state y hx made hmade fun p hp c hc =>
          hbefore _ (h before y after hscopes p hp c hc)
  exact hgo scopes [] all start rfl (by simp) hall

/-- The scopes that a scope opens come before it. -/
theorem childrenFirst_scopesBelow (names : List String) (ps : List Property) :
    ChildrenFirst (scopesBelow names ps) := by
  induction ps using scope_induction generalizing names with
  | nil => intro before x after h; simp [scopesBelow] at h
  | cons q qs ihq ihqs =>
    rw [scopesBelow, scopesIn_eq]
    refine ChildrenFirst.append ?_ (ihqs names)
    cases hc : q.nested with
    | none => intro before x after h; simp at h
    | some c => exact (ihq c hc _).concat fun p hp c' hc' => inner_mem_scopesBelow hp hc'

end Property

/-- The name of the class that some names lead to. -/
def ClassNaming.last (naming : ClassNaming) (names : List String) : String :=
  match naming with
  | .nested => names.getLastD ""
  | .flattened => String.join names

lemma ClassModel.postorderAll_eq_flatMap (cs : List ClassModel) :
    postorderAll cs = cs.flatMap postorder := by
  induction cs with
  | nil => rfl
  | cons c cs ih => rw [postorderAll, ih, List.flatMap_cons]

namespace Schema

def classAt (s : Schema) (profile : Profile) (x : Scope) : ClassModel :=
  s.classModel profile x.names (profile.classNaming.last x.names) (Text.join "::" x.names)
    x.properties (s.nestedClasses profile x.names x.properties)

/-- The scopes of the nested classes of a schema, the inner ones first. -/
def nestedScopes (s : Schema) : List Scope :=
  Property.scopesBelow [s.name] s.properties

/-- All scopes of a schema, the inner ones first. -/
def scopes (s : Schema) : List Scope :=
  s.nestedScopes ++ [s.rootScope]

lemma qualify_eq_join {names : List String} (h : names ≠ []) (name : String) :
    qualify names name = Text.join "::" (names ++ [name]) := by
  rw [qualify, Text.join_concat "::" h]

lemma naming_apply_eq_last (naming : ClassNaming) (names : List String) (name : String) :
    naming.apply names name = naming.last (names ++ [name]) := by
  cases naming <;> simp [ClassNaming.apply, ClassNaming.last, flatten, String.join_append,
    String.join_cons]

lemma nestedClasses_cons (s : Schema) (profile : Profile) {names : List String} (h : names ≠ [])
    (p : Property) (ps : List Property) :
    s.nestedClasses profile names (p :: ps) =
      (p.nested.map fun c => s.classAt profile ⟨names ++ [c.name], c.properties⟩).toList ++
        s.nestedClasses profile names ps := by
  obtain ⟨_, _, _, _, _ | ⟨name, qs⟩, _⟩ := p
  · rfl
  · simp [nestedClasses, nestedClass?, classAt, naming_apply_eq_last, qualify_eq_join h]

/-- The classes declared in a class are those of the scopes that its properties open. -/
theorem nestedClasses_eq (s : Schema) (profile : Profile) {names : List String} (h : names ≠ [])
    (ps : List Property) :
    s.nestedClasses profile names ps =
      (ps.filterMap (·.nested)).map fun c =>
        s.classAt profile ⟨names ++ [c.name], c.properties⟩ := by
  induction ps with
  | nil => rfl
  | cons p ps ih =>
    rw [nestedClasses_cons s profile h, ih]
    cases hc : p.nested <;> simp [hc]

lemma postorderAll_append (cs ds : List ClassModel) :
    ClassModel.postorderAll (cs ++ ds) =
      ClassModel.postorderAll cs ++ ClassModel.postorderAll ds := by
  simp only [ClassModel.postorderAll_eq_flatMap, List.flatMap_append]

lemma postorder_classAt (s : Schema) (profile : Profile) (x : Scope) :
    (s.classAt profile x).postorder =
      ClassModel.postorderAll (s.nestedClasses profile x.names x.properties) ++
        [s.classAt profile x] := by
  rw [ClassModel.postorder_eq]
  rfl

lemma postorderAll_nestedClasses (s : Schema) (profile : Profile) {names : List String}
    (h : names ≠ []) (ps : List Property) :
    ClassModel.postorderAll (s.nestedClasses profile names ps) =
      (Property.scopesBelow names ps).map (s.classAt profile) := by
  induction ps using Property.scope_induction generalizing names with
  | nil => rfl
  | cons p ps ihp ihps =>
    rw [nestedClasses_cons s profile h, postorderAll_append, ihps h, Property.scopesBelow,
      Property.scopesIn_eq, List.map_append]
    congr 1
    cases hc : p.nested with
    | none => rfl
    | some c =>
      have hnames : names ++ [c.name] ≠ [] := by simp
      simp only [Option.map_some, Option.toList_some, ClassModel.postorderAll, List.append_nil,
        postorder_classAt, ihp c hc hnames, Option.elim, List.map_append, List.map_cons,
        List.map_nil]

lemma root_model (s : Schema) (target : Target) :
    (s.model target).root = s.classAt target.profile s.rootScope := by
  cases target <;> simp [model, classAt, rootScope, ClassNaming.last, Target.profile, String.join]

/-- The nested classes of a model are those of the nested scopes, in the same order. -/
theorem nested_root_model (s : Schema) (target : Target) :
    (s.model target).root.nested = s.nestedScopes.map (s.classAt target.profile) := by
  rw [root_model]
  exact postorderAll_nestedClasses s target.profile (by simp [rootScope]) s.properties

theorem postorder_model (s : Schema) (target : Target) :
    (s.model target).root.postorder =
      s.scopes.map (s.classAt target.profile) := by
  rw [scopes, ClassModel.postorder_eq, nested_root_model, root_model, List.map_append]
  rfl

lemma childrenFirst_scopes (s : Schema) : Property.ChildrenFirst s.scopes :=
  (Property.childrenFirst_scopesBelow _ _).concat fun _ hp _ hc =>
    Property.inner_mem_scopesBelow hp hc

/-- The scopes that a scope opens are among the nested ones. -/
lemma inner_mem_nestedScopes (s : Schema) {x : Scope} (hx : x ∈ s.scopes)
    {p : Property} (hp : p ∈ x.properties) {c : NestedClass} (hc : p.nested = some c) :
    x.inner c ∈ s.nestedScopes := by
  rcases List.mem_append.mp hx with hx | hx
  · obtain ⟨before, after, hscopes⟩ := List.append_of_mem hx
    have hbefore := Property.childrenFirst_scopesBelow _ _ before x after hscopes p hp c hc
    rw [hscopes]
    exact List.mem_append_left _ hbefore
  · rw [List.mem_singleton.mp hx] at hp ⊢
    exact Property.inner_mem_scopesBelow hp hc

/-- What holds of the root scope and goes over to inner scopes holds of all scopes. -/
theorem forall_scopes {P : Scope → Prop} (s : Schema) (root : P s.rootScope)
    (step : ∀ x, P x → ∀ p ∈ x.properties, ∀ c, p.nested = some c → P (x.inner c)) :
    ∀ x ∈ s.scopes, P x := by
  intro x hx
  rcases List.mem_append.mp hx with hx | hx
  · exact Property.forall_scopesBelow step root x hx
  · exact List.mem_singleton.mp hx ▸ root

lemma names_ne_nil (s : Schema) {x : Scope} (hx : x ∈ s.scopes) : x.names ≠ [] := by
  refine forall_scopes (P := fun x => x.names ≠ []) s ?_ ?_ x hx
  · simp [rootScope]
  · intro x _ p _ c _
    simp [Scope.inner]

/-- Outside of its class, the type of a property is the class that it declares. -/
lemma nestedType_member_of_class (s : Schema) (profile : Profile) {x : Scope} (hx : x.names ≠ [])
    {p : Property} {c : NestedClass} (hc : p.nested = some c) :
    (p.member profile x.names).nestedType = (s.classAt profile (x.inner c)).nestedName := by
  simp [Property.member, Property.className?, hc, qualify_eq_join hx, classAt, classModel,
    Scope.inner]

end Schema

end BeanForge
