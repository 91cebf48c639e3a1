import BeanForge.Wrapper
import BeanForge.Wrapper.Datum
/-!
# What wrappers do

The meaning of the bodies of a wrapper's member functions, with value classes as `Datum`
describes them. Wrapper classes are defined in order, and one may use those before it; one in which
a name could stand for two things is not defined at all. A step is `none` if a name that it needs is
missing or is not what it is used as.
-/
namespace BeanForge.Wrapper

/-- A wrapper: its class, the value it owns, and its children by their properties. -/
inductive Object (α : Type) where
  | mk (wrapper : String) (data : Datum α) (children : List (String × Object α))

/-- The change signal of a property, in the wrapper that a path of properties leads to. -/
structure Emission where
  path : List String
  property : String
  deriving DecidableEq, Repr

/-- A signal of a child, as seen from its parent. -/
def Emission.below (property : String) (e : Emission) : Emission :=
  ⟨property :: e.path, e.property⟩

namespace Object

variable {α : Type}

def wrapper : Object α → String
  | mk w _ _ => w

def data : Object α → Datum α
  | mk _ d _ => d

/-- The child of a property. -/
def child? : Object α → String → Option (Object α)
  | mk _ _ cs, property => cs.lookup property

def setData : Object α → Datum α → Object α
  | mk w _ cs, d => mk w d cs

/-- The wrapper with another child of a property that has one. -/
def setChild : Object α → String → Object α → Object α
  | mk w d cs, property, child =>
    mk w d (cs.map fun (p, old) => if p = property then (p, child) else (p, old))

end Object

/-- A wrapper after a step, and the signals that were emitted on the way. -/
abbrev Reaction (α : Type) := Object α × List Emission

structure Behaviour (α : Type) where
  /-- The wrapper of a value. -/
  adopt : Datum α → Option (Object α)
  /-- The property whose child a getter returns. -/
  child? : String → Option String
  /-- What a getter shows; nothing if it returns a child. -/
  show? : String → Object α → Option (Datum α)
  data : Object α → Option (Datum α)
  update : Datum α → Object α → Option (Reaction α)
  /-- A call of a setter. -/
  set : String → Datum α → Object α → Option (Reaction α)

abbrev Behaviours (α : Type) := List (String × Behaviour α)

variable {α : Type}

/-- A class with a wrapper in which each name stands for one thing. -/
structure Unambiguous (c : ClassModel) : Prop where
  getters : (c.members.map (·.getter)).Nodup
  setters : (c.members.filterMap (·.setter)).Nodup
  /-- No getter is called like the function for the whole value. -/
  data : ∀ m ∈ c.members, m.getter ≠ "data"
  /-- No child is held in a data member that is called like the one of the owned value. -/
  children : ∀ m ∈ c.members, isChild m → m.name ≠ "data"
  /-- No parameter hides the data member of the owned value. -/
  parameters : ∀ m ∈ c.members, (setter? m).isSome → m.name ≠ "m_data"

instance (c : ClassModel) : Decidable (Unambiguous c) :=
  decidable_of_iff ((c.members.map (·.getter)).Nodup ∧ (c.members.filterMap (·.setter)).Nodup ∧
      (∀ m ∈ c.members, m.getter ≠ "data") ∧ (∀ m ∈ c.members, isChild m → m.name ≠ "data") ∧
      ∀ m ∈ c.members, (setter? m).isSome → m.name ≠ "m_data")
    ⟨fun ⟨hg, hs, hd, hc, hp⟩ => ⟨hg, hs, hd, hc, hp⟩,
      fun ⟨hg, hs, hd, hc, hp⟩ => ⟨hg, hs, hd, hc, hp⟩⟩

/-- The body of the setter of a name, and the name of its parameter. -/
def setterBody? (c : ClassModel) (setter : String) : Option (String × Body) :=
  (bodies c).findSome? fun
    | (.setter name p, body) => if name = setter then some (p.name, body) else none
    | _ => none

/-- The body of the getter of a name. -/
def getterBody? (c : ClassModel) (getter : String) : Option Body :=
  (bodies c).findSome? fun
    | (.getter _ name, body) => if name = getter then some body else none
    | _ => none

/-- Creates one child from a value that is taken over. -/
def adoptChild (known : Behaviours α) (c : ClassModel) (d : Datum α) (child : Child) :
    Option (String × Object α) := do
  return (child.property, ← (← known.lookup child.wrapper).adopt (← d.get? c child.getter))

/-- The wrapper of a value of a class. -/
def runAdopt (known : Behaviours α) (c : ClassModel) (d : Datum α) : Option (Object α) :=
  match (bodies c).lookup .adopt with
  | some (.takeOver cs) => do return .mk (name c) d (← cs.mapM (adoptChild known c d))
  | _ => none

/-- The property whose child a getter returns. -/
def shownChild? (c : ClassModel) (getter : String) : Option String :=
  match getterBody? c getter with
  | some (.showChild property) => some property
  | _ => none

/-- What a getter shows of the owned value. -/
def runGetter (c : ClassModel) (getter : String) (o : Object α) : Option (Datum α) :=
  match getterBody? c getter with
  | some (.showValue g) => o.data.get? c g
  | _ => none

def partValue (known : Behaviours α) (c : ClassModel) (o : Object α) : Part → Option (Datum α)
  | .child p => do
    let child ← o.child? p
    (← known.lookup child.wrapper).data child
  | .value g => o.data.get? c g

def runData (known : Behaviours α) (c : ClassModel) (o : Object α) : Option (Datum α) :=
  match (bodies c).lookup .data with
  | some (.collect parts) => do Datum.construct? c (← parts.mapM (partValue known c o))
  | _ => none

/-- Updates one child from the value that its parent owns. -/
def updateChild (known : Behaviours α) (c : ClassModel) (r : Reaction α) (child : Child) :
    Option (Reaction α) := do
  let o ← r.1.child? child.property
  let (o, emitted) ← (← known.lookup o.wrapper).update (← r.1.data.get? c child.getter) o
  return (r.1.setChild child.property o, r.2 ++ emitted.map (Emission.below child.property))

section

variable [DecidableEq α]

/-- Whether a getter returns different things for two values. -/
def differs (c : ClassModel) (before after : Datum α) (w : Watched) : Option Bool := do
  return (← before.get? c w.getter) ≠ (← after.get? c w.getter)

def runUpdate (known : Behaviours α) (c : ClassModel) (d : Datum α) (o : Object α) :
    Option (Reaction α) :=
  match (bodies c).lookup .update with
  | some (.replace cs ws) => do
    let (after, emitted) ← cs.foldlM (updateChild known c) (o.setData d, [])
    let moved ← ws.filterM (differs c o.data d)
    return (after, emitted ++ moved.map fun w => ⟨[], w.property⟩)
  | _ => none

/-- Whether an expression hands over a parameter, copied or moved. -/
def handsOver (value parameter : String) : Bool :=
  value == parameter || value == "std::move(" ++ parameter ++ ")"

def runSetter (c : ClassModel) (setter : String) (v : Datum α) (o : Object α) :
    Option (Reaction α) :=
  match setterBody? c setter with
  | some (parameter, .change g s property value) =>
    if handsOver value parameter then do
      if (← o.data.get? c g) = v then return (o, [])
      return (o.setData (← o.data.set? c s v), [⟨[], property⟩])
    else none
  | _ => none

/-- What the member functions of the wrapper of a class do, given the wrappers defined before. -/
def behaviour (known : Behaviours α) (c : ClassModel) : Behaviour α where
  adopt := runAdopt known c
  child? := shownChild? c
  show? := runGetter c
  data := runData known c
  update := runUpdate known c
  set := runSetter c

/-- The wrapper classes after one more is defined. -/
def define (known : Behaviours α) (c : ClassModel) : Behaviours α :=
  if Unambiguous c then (name c, behaviour known c) :: known else known

/-- The wrapper classes of a class and of all classes in it. -/
def behaviours (c : ClassModel) : Behaviours α :=
  c.postorder.foldl define []

end

namespace Object

/-- The wrapper that a class gives a value. -/
def adopt? (known : Behaviours α) (wrapper : String) (d : Datum α) : Option (Object α) := do
  (← known.lookup wrapper).adopt d

def value? (known : Behaviours α) (o : Object α) : Option (Datum α) := do
  (← known.lookup o.wrapper).data o

/-- Replaces the whole value of a wrapper. -/
def update? (known : Behaviours α) (d : Datum α) (o : Object α) : Option (Reaction α) := do
  (← known.lookup o.wrapper).update d o

/-- What a getter shows in the wrapper that the getters of class properties lead to. -/
def show? (known : Behaviours α) (getter : String) : List String → Object α → Option (Datum α)
  | [], o => do (← known.lookup o.wrapper).show? getter o
  | p :: path, o => do
    let property ← (← known.lookup o.wrapper).child? p
    show? known getter path (← o.child? property)

/-- Calls a setter of the wrapper that the getters of class properties lead to. -/
def set? (known : Behaviours α) (setter : String) (v : Datum α) :
    List String → Object α → Option (Reaction α)
  | [], o => do (← known.lookup o.wrapper).set setter v o
  | p :: path, o => do
    let property ← (← known.lookup o.wrapper).child? p
    let (child, emitted) ← set? known setter v path (← o.child? property)
    return (o.setChild property child, emitted.map (Emission.below property))

end Object

end BeanForge.Wrapper
