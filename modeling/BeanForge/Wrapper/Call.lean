import BeanForge.MemberName
import BeanForge.Wrapper.Behaviour
import BeanForge.Wrapper.Notification
/-!
# Calls of wrappers

What can be done to a wrapper and to those it leads to, and what should come of it. Which calls are
possible, the value that they leave, and the signals that are due are said of the schema and of
values alone. A wrapper is faithful to a value if it shows this value, as a whole and
property by property.
-/
namespace BeanForge.Wrapper

/-- A path of properties that are single classes, from the properties of a class to those of another
one inside it. -/
inductive Leads : List Property → List String → List Property → Prop
  | here (ps : List Property) : Leads ps [] ps
  | inside {ps qs : List Property} {path : List String} {p : Property} {c : NestedClass}
      (mem : p ∈ ps) (single : isSingleClass p = true) (nested : p.nested = some c)
      (rest : Leads c.properties path qs) : Leads ps (p.name :: path) qs

variable {α : Type}

/-- A value of a class with some properties. -/
def FitsClass (ps : List Property) (d : Datum α) : Prop :=
  ∃ fs, d = .record fs ∧ Fits ps fs

/-- A call from outside. -/
inductive Call (α : Type) where
  /-- Replaces the whole value. -/
  | update (d : Datum α)
  /-- Calls the setter of a property in the wrapper that a path leads to. -/
  | set (path : List String) (property : String) (v : Datum α)

namespace Call

/-- A call that can be made of the wrapper of a class: there is such a setter, and the value has the
type that is asked for. -/
inductive Possible (ps : List Property) : Call α → Prop
  | update {d : Datum α} (fits : FitsClass ps d) : Possible ps (.update d)
  | set {path : List String} {qs : List Property} {p : Property} {v : Datum α}
      (leads : Leads ps path qs) (mem : p ∈ qs) (access : p.access = .readWrite)
      (plain : isSingleClass p = false) (fits : FitsProperty p v) : Possible ps (.set path p.name v)

/-- The value after a call: the new one, or that before with one field replaced. -/
def result : Call α → Datum α → Datum α
  | .update d, _ => d
  | .set path property v, before => Datum.setAt property v path before

/-- The signals that a call must emit: those that are due, each once, and for a setter that of its
property unless it had the value before. -/
def Announces (ps : List Property) (before : Datum α) (emitted : List Emission) : Call α → Prop
  | .update after => emitted.Nodup ∧
      ∀ path property, ⟨path, property⟩ ∈ emitted ↔ Due ps before after path property
  | .set path property v =>
      ((before.at? path).bind (·.field? property) = some v → emitted = []) ∧
      ((before.at? path).bind (·.field? property) ≠ some v → emitted = [⟨path, property⟩])

/-- Makes a call. Getters of single classes are called like their property. -/
def run? (known : Behaviours α) : Call α → Object α → Option (Reaction α)
  | .update d, o => o.update? known d
  | .set path property v, o => o.set? known (MemberName.setter property) v path

end Call

def Object.runAll? (known : Behaviours α) (calls : List (Call α)) (o : Object α) :
    Option (Object α) :=
  calls.foldlM (fun o call => (call.run? known o).map Prod.fst) o

/-- A wrapper that shows a value: as a whole, and each property of it through the getters. -/
structure Faithful (known : Behaviours α) (ps : List Property) (o : Object α) (d : Datum α) :
    Prop where
  value : o.value? known = some d
  shown : ∀ path qs, Leads ps path qs → ∀ p ∈ qs, isSingleClass p = false →
    ∃ v, (d.at? path).bind (·.field? p.name) = some v ∧
      o.show? known (MemberName.getter p.typeName p.name) path = some v

end BeanForge.Wrapper
