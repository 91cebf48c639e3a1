import BeanForge.Proofs.Scopes
/-!
# Declarations at all depths

The declarations of a schema, each followed by those of the class that it opens. They are the
declarations of all scopes, and what a model says of a schema as a whole is said of them: whether
there is a list, which types are declared, and how many classes there are.
-/
namespace BeanForge

namespace Property

mutual

/-- A property, then those in the class it declares. -/
def declarationsIn : Property → List Property
  | ⟨name, typeName, access, isList, some ⟨className, ps⟩, binding⟩ =>
    ⟨name, typeName, access, isList, some ⟨className, ps⟩, binding⟩ :: declarations ps
  | ⟨name, typeName, access, isList, none, binding⟩ =>
    [⟨name, typeName, access, isList, none, binding⟩]

/-- Several properties, each followed by those in the class it declares. -/
def declarations : List Property → List Property
  | [] => []
  | p :: ps => declarationsIn p ++ declarations ps

end

lemma declarationsIn_eq (p : Property) :
    declarationsIn p = p :: p.nested.elim [] fun c => declarations c.properties := by
  obtain ⟨_, _, _, _, _ | ⟨_, _⟩, _⟩ := p <;> rfl

lemma declarations_eq_flatMap (ps : List Property) :
    declarations ps = ps.flatMap declarationsIn := by
  induction ps with
  | nil => rfl
  | cons p ps ih => rw [declarations, ih, List.flatMap_cons]

/-- The properties of a list and of the scopes that they open are the declarations. -/
lemma mem_declarations_iff {names : List String} {ps : List Property} {p : Property} :
    p ∈ declarations ps ↔ p ∈ ps ∨ ∃ x ∈ scopesBelow names ps, p ∈ x.properties := by
  induction ps using scope_induction generalizing names with
  | nil => simp [declarations, scopesBelow]
  | cons q qs ihq ihqs =>
    rw [declarations, declarationsIn_eq, scopesBelow, scopesIn_eq]
    simp only [List.mem_append, List.mem_cons, @ihqs names]
    cases hc : q.nested with
    | none => simp [or_assoc]
    | some c =>
      simp only [Option.elim_some, @ihq c hc (names ++ [c.name]), List.mem_append,
        List.mem_singleton, or_and_right, exists_or, exists_eq_left]
      simp only [or_assoc, or_left_comm, or_comm]

lemma length_scopesBelow (names : List String) (ps : List Property) :
    (scopesBelow names ps).length = (declarations ps).countP isClass := by
  induction ps using scope_induction generalizing names with
  | nil => rfl
  | cons q qs ihq ihqs =>
    rw [declarations, declarationsIn_eq, scopesBelow, scopesIn_eq, List.length_append, ihqs,
      List.countP_append, List.countP_cons]
    cases hc : q.nested with
    | none => simp [isClass, hc]
    | some c => simp [isClass, hc, ihq c hc]

end Property

namespace Schema

/-- The declarations of a schema at all depths. -/
def declarations (s : Schema) : List Property :=
  Property.declarations s.properties

lemma mem_declarations_iff {s : Schema} {p : Property} :
    p ∈ s.declarations ↔ ∃ x ∈ s.scopes, p ∈ x.properties := by
  rw [declarations, @Property.mem_declarations_iff [s.name]]
  simp only [scopes, nestedScopes, rootScope, List.mem_append, List.mem_singleton, or_and_right,
    exists_or, exists_eq_left]
  exact or_comm

/-- Some property at any depth is a list exactly if some declaration is. -/
lemma hasList_eq_any (ps : List Property) :
    hasList ps = (Property.declarations ps).any (·.isList) := by
  induction ps using Property.scope_induction with
  | nil => rfl
  | cons p ps ihp ihps =>
    rw [hasList, ihps, Property.declarations, List.any_append, Property.declarationsIn_eq]
    obtain ⟨_, _, _, _, _ | ⟨_, qs⟩, _⟩ := p
    · simp [hasListIn]
    · simp [hasListIn, ihp ⟨_, qs⟩ rfl]

lemma typeNames_eq_map (ps : List Property) :
    typeNames ps = (Property.declarations ps).map (·.typeName) := by
  induction ps using Property.scope_induction with
  | nil => rfl
  | cons p ps ihp ihps =>
    rw [typeNames, ihps, Property.declarations, List.map_append, Property.declarationsIn_eq]
    obtain ⟨_, _, _, _, _ | ⟨_, qs⟩, _⟩ := p
    · rfl
    · simp [typeNamesIn, ihp ⟨_, qs⟩ rfl]

end Schema

end BeanForge
