import BeanForge.Proofs.Agreement.Renderings
import BeanForge.Proofs.Document.Signatures
/-!
# How values are passed

A value is copied or moved, and this is decided at several places of the generated code: some ask
for the declared type of a property, in which all classes are alike, and some for the type as it is
stored, in which a class has the name that it was given. They agree on every property of an accepted
document, except on a single value of a class that has the name of a simple type.
-/
namespace BeanForge

namespace TypeName

/-- The names of the types that are copied. -/
def simpleNames : List String :=
  ["int", "double", "bool"]

lemma isSimple_iff_mem {type : String} : isSimple type ↔ type ∈ simpleNames := by
  simp [isSimple, simpleNames, or_assoc]

lemma parameter_eq_value_iff {type : String} : parameter type = type ++ " " ↔ isSimple type := by
  unfold parameter
  split <;> simp_all

lemma parameter_eq_reference_iff {type : String} :
    parameter type = type ++ " &&" ↔ ¬ isSimple type := by
  unfold parameter
  split <;> simp_all

lemma move_ne (name : String) : "std::move(" ++ name ++ ")" ≠ name := by
  intro h
  have hlength := congrArg String.length h
  simp only [String.length_append] at hlength
  have hclose : ")".length = 1 := rfl
  omega

lemma stored_eq_name_iff {type name : String} : stored type name = name ↔ isSimple type := by
  have hmove := move_ne name
  unfold stored
  split <;> simp_all

lemma stored_eq_move_iff {type name : String} :
    stored type name = "std::move(" ++ name ++ ")" ↔ ¬ isSimple type := by
  have hmove := (move_ne name).symm
  unfold stored
  split <;> simp_all

end TypeName

/-- The places that decide how the value of a property is passed. -/
inductive PassingPlace where
  /-- The kind that is noted for the property. -/
  | kind
  /-- The initial value of the data member. -/
  | initialValue
  /-- The parameter of the setter and of the constructor. -/
  | parameter
  /-- The expression that stores this parameter. -/
  | stored
  /-- The parameter of the setter in a wrapper. -/
  | wrapper
  /-- What a decoder hands to the constructor. -/
  | decoder
  deriving DecidableEq, Repr

namespace PassingPlace

/-- A place passes a property by value. -/
def Copies (m : Member) : PassingPlace → Prop
  | kind => m.kind = .simple
  | initialValue => m.initialValue ≠ ""
  | parameter => m.parameterType = m.memberType ++ " "
  | stored => m.stored = m.name
  | wrapper => (Wrapper.parameter m).type = m.nestedMemberType ++ " "
  | decoder => (Decoder.argument m).text = Decoder.fieldLocal m.name

/-- A place passes a property by rvalue reference, or leaves its data member to the default. -/
def Moves (m : Member) : PassingPlace → Prop
  | kind => m.kind = .list ∨ m.kind = .object
  | initialValue => m.initialValue = ""
  | parameter => m.parameterType = m.memberType ++ " &&"
  | stored => m.stored = "std::move(" ++ m.name ++ ")"
  | wrapper => (Wrapper.parameter m).type = m.nestedMemberType ++ " &&"
  | decoder => (Decoder.argument m).text = "std::move(" ++ Decoder.fieldLocal m.name ++ ")"

/-- The places that ask for the declared type. The others ask for the stored one. -/
def asksDeclared : PassingPlace → Bool
  | kind | initialValue | wrapper => true
  | parameter | stored | decoder => false

end PassingPlace

namespace Property

/-- A single value whose declared type is simple. -/
def DeclaredSimple (p : Property) : Prop :=
  p.isList = false ∧ p.typeName ∈ TypeName.simpleNames

instance (p : Property) : Decidable p.DeclaredSimple :=
  inferInstanceAs (Decidable (_ ∧ _))

/-- A single value that is stored as a simple type. -/
def StoredSimple (p : Property) : Prop :=
  p.isList = false ∧ p.className?.getD p.typeName ∈ TypeName.simpleNames

end Property

/-- A property is passed as its declared type or its stored type demands, and these demand the same
unless the property is a single value of a class that is named like a simple type. -/
structure Passed (p : Property) (m : Member) : Prop where
  moves : ∀ place, PassingPlace.Moves m place ↔ ¬ PassingPlace.Copies m place
  declared : ∀ place : PassingPlace, place.asksDeclared = true → (place.Copies m ↔ p.DeclaredSimple)
  stored : ∀ place : PassingPlace, place.asksDeclared = false → (place.Copies m ↔ p.StoredSimple)
  agree : (∀ place, PassingPlace.Copies m place ↔ p.DeclaredSimple) ↔
    ¬ (p.isList = false ∧ ∃ name ∈ TypeName.simpleNames, p.className? = some name)

lemma Decoder.argument_text (m : Member) :
    (argument m).text = TypeName.stored m.memberType (fieldLocal m.name) := by
  unfold Argument.text argument TypeName.stored
  cases TypeName.isSimple m.memberType <;> rfl

namespace Property

variable (profile : Profile) (names : List String) (p : Property)

/-- A list is not simple, whatever it holds. -/
lemma isSimple_memberType_iff :
    TypeName.isSimple (p.member profile names).memberType ↔ p.StoredSimple := by
  rw [StoredSimple, ← TypeName.isSimple_iff_mem]
  cases hlist : p.isList with
  | true => simp [member, hlist, TypeName.isSimple_listOf]
  | false => simp [member, hlist]

lemma kind_eq_simple_iff :
    (p.member profile names).kind = .simple ↔ p.DeclaredSimple := by
  rw [DeclaredSimple, ← TypeName.isSimple_iff_mem]
  unfold member
  cases hlist : p.isList with
  | true => simp
  | false => by_cases hsimple : TypeName.isSimple p.typeName <;> simp [hsimple]

lemma initialValue_eq_empty_iff :
    (p.member profile names).initialValue = "" ↔ ¬ p.DeclaredSimple := by
  rw [DeclaredSimple, ← TypeName.isSimple_iff_mem]
  unfold member
  cases hlist : p.isList with
  | true => simp
  | false => simp [TypeName.initialValue_eq_empty_iff]

lemma copies_declared (place : PassingPlace) (h : place.asksDeclared = true) :
    place.Copies (p.member profile names) ↔ p.DeclaredSimple := by
  have hkind := kind_eq_simple_iff profile names p
  cases place <;> cases h
  case kind => exact hkind
  case initialValue => rw [PassingPlace.Copies, ne_eq, initialValue_eq_empty_iff, not_not]
  case wrapper =>
    rw [← hkind, PassingPlace.Copies, Wrapper.parameter]
    by_cases hsimple : (p.member profile names).kind = .simple <;> simp [hsimple]

lemma copies_stored (place : PassingPlace) (h : place.asksDeclared = false) :
    place.Copies (p.member profile names) ↔ p.StoredSimple := by
  rw [← isSimple_memberType_iff profile names]
  cases place <;> cases h
  case parameter => exact TypeName.parameter_eq_value_iff
  case stored => exact TypeName.stored_eq_name_iff
  case decoder => rw [PassingPlace.Copies, Decoder.argument_text]; exact TypeName.stored_eq_name_iff

/-- What is not copied is moved. -/
lemma moves_iff (place : PassingPlace) :
    place.Moves (p.member profile names) ↔ ¬ place.Copies (p.member profile names) := by
  cases place with
  | kind =>
    cases h : (p.member profile names).kind <;> simp [PassingPlace.Moves, PassingPlace.Copies, h]
  | initialValue => exact not_not.symm
  | parameter =>
    exact TypeName.parameter_eq_reference_iff.trans (not_congr TypeName.parameter_eq_value_iff.symm)
  | stored => exact TypeName.stored_eq_move_iff.trans (not_congr TypeName.stored_eq_name_iff.symm)
  | wrapper =>
    rw [PassingPlace.Moves, PassingPlace.Copies, Wrapper.parameter]
    by_cases hsimple : (p.member profile names).kind = .simple <;> simp [hsimple]
  | decoder =>
    rw [PassingPlace.Moves, PassingPlace.Copies, Decoder.argument_text]
    exact TypeName.stored_eq_move_iff.trans (not_congr TypeName.stored_eq_name_iff.symm)

/-- The declared type of a class is not simple, so all places agree unless its name is. -/
lemma passed_member (hclass : p.nested.isSome → p.typeName = classType) :
    Passed p (p.member profile names) where
  moves := moves_iff profile names p
  declared := copies_declared profile names p
  stored := copies_stored profile names p
  agree := by
    have hplaces :
        (∀ place, PassingPlace.Copies (p.member profile names) place ↔ p.DeclaredSimple) ↔
          (p.StoredSimple ↔ p.DeclaredSimple) := by
      constructor
      -- A single place that asks for the stored type shows whether the two demands are the same.
      · exact fun h => (copies_stored profile names p .stored rfl).symm.trans (h .stored)
      · intro h place
        cases hplace : place.asksDeclared with
        | true => exact copies_declared profile names p place hplace
        | false => exact (copies_stored profile names p place hplace).trans h
    rw [hplaces, StoredSimple, DeclaredSimple]
    cases hnested : p.nested with
    | none => simp [className?, hnested]
    | some c =>
      have htype : p.typeName = classType := hclass (by rw [hnested]; rfl)
      have hnot : classType ∉ TypeName.simpleNames := by decide
      simp [className?, hnested, htype, hnot]

end Property

/-- Each property of the code for an accepted document is passed as it is declared, with the one
exception. -/
theorem Document.values_passed {target : Target} {d : Document} {s : Schema}
    (h : d.check target = .ok s) :
    (s.model target).Written ∧ ∀ position c, (s.model target).root.at? position = some c →
      ∃ x, s.rootScope.at? position = some x ∧ List.Forall₂ Passed x.properties c.members := by
  refine ⟨s.written target, fun position c hc => ?_⟩
  rw [s.at?_root_model target position, Option.map_eq_some_iff] at hc
  obtain ⟨x, hx, rfl⟩ := hc
  have hscope : x ∈ s.scopes := s.mem_scopes_of_at? (List.mem_append_right _ List.mem_cons_self) hx
  refine ⟨x, hx, ?_⟩
  change List.Forall₂ Passed x.properties
    (x.properties.map (Property.member target.profile x.names))
  rw [List.forall₂_map_right_iff, List.forall₂_same]
  exact fun p hp => p.passed_member target.profile x.names (typeName_of_class h x hscope p hp)

/-- In the class of the stops of a trip, the minutes are copied at each place. -/
theorem Document.values_passed_trip :
    ∃ c m, ((tripDocument.typed .factory).model .factory).root.at? [0, 0] = some c ∧
      m ∈ c.members ∧ m.name = "minutes" ∧ ∀ place, PassingPlace.Copies m place := by
  have hcheck : tripDocument.check .factory = .ok (tripDocument.typed .factory) := rfl
  obtain ⟨x, hx, hpassed⟩ := (Document.values_passed hcheck).2 [0, 0] _ rfl
  obtain rfl := Option.some.inj hx
  obtain ⟨hminutes, _⟩ := List.forall₂_cons.mp hpassed
  refine ⟨_, _, rfl, List.mem_cons_self, rfl, fun place => ?_⟩
  exact (hminutes.agree.mpr (by decide) place).mpr (by decide)

/-- A document with a class that is named like a simple type. -/
def intDocument : Document where
  name := some "D"
  moduleName := some "m"
  properties := some [
    { name := some "a", typeName := some "class", access := some "rw", className := some "int",
      properties := some [] }]

/-- A value of this class is copied where it is stored, but its kind and the setter in the wrapper
are those of a value to be moved. -/
theorem Document.values_intDocument :
    ∃ s c m, intDocument.check .bean = .ok s ∧ (s.model .bean).root.at? [] = some c ∧
      c.members = [m] ∧ m.kind = .object ∧ m.initialValue = "" ∧ PassingPlace.Moves m .wrapper ∧
      m.parameterType = "int " ∧ PassingPlace.Copies m .parameter ∧ PassingPlace.Copies m .stored ∧
      PassingPlace.Copies m .decoder := by
  refine ⟨_, _, _, rfl, rfl, rfl, rfl, rfl, rfl, rfl, rfl, rfl, rfl⟩

end BeanForge
