import BeanForge.Schema
import BeanForge.Wrapper.Datum
/-!
# When wrappers have to notify

Said of a schema and its values alone: which values fit the properties of a class, and which
change signals are due when one value takes the place of another. A property of a single class
announces nothing itself; what changes inside is announced by the properties of that class.
-/
namespace BeanForge.Wrapper

variable {α : Type}

mutual

/-- A value that a property can have. -/
def FitsProperty : Property → Datum α → Prop
  | ⟨_, _, _, false, some ⟨_, ps⟩, _⟩, .record fs => Fits ps fs
  | ⟨_, _, _, false, some _, _⟩, .plain _ => False
  | ⟨_, _, _, true, _, _⟩, d | ⟨_, _, _, false, none, _⟩, d => ∃ a, d = .plain a

/-- The fields of a value that the properties of a class can have. -/
def Fits : List Property → List (String × Datum α) → Prop
  | [], [] => True
  | p :: ps, (property, d) :: fs => property = p.name ∧ FitsProperty p d ∧ Fits ps fs
  | _, _ => False

end

/-- Whether the values of a property are shown as wrappers of their own. -/
def isSingleClass (p : Property) : Bool :=
  p.nested.isSome && !p.isList

/-- A signal that is due in the wrapper that a path leads to, when a value of the class changes:
the property is not constant, is not a class of its own, and has another value than before. -/
def Due : List Property → Datum α → Datum α → List String → String → Prop
  | ps, before, after, [], property =>
    ∃ p ∈ ps, p.name = property ∧ p.access ≠ .const ∧ isSingleClass p = false ∧
      before.field? property ≠ after.field? property
  | ps, before, after, step :: path, property =>
    ∃ p ∈ ps, p.name = step ∧ isSingleClass p = true ∧
      ∃ c b a, p.nested = some c ∧ before.field? step = some b ∧ after.field? step = some a ∧
        Due c.properties b a path property

end BeanForge.Wrapper
