import BeanForge.Decoder
/-!
# What decoding functions refer to

The locals that statements declare and use, and the condition for a code model to have everything
that its decoder refers to. `Closed` is what the generated language demands of a body: nothing is
used before it is declared, and nothing is declared twice.
-/
namespace BeanForge.Decoder

namespace Statement

def declared? : Statement → Option String
  | bind object _ _ => some object
  | scalar _ field _ _ _ | declareDefault _ field | declareList _ field => some field
  | require .. | appendScalars .. | parse .. | appendParsed .. | construct .. => none

/-- The locals with objects that a statement reads. -/
def objects : Statement → List String
  | bind _ object _ | require object _ | scalar _ _ object _ _ | appendScalars _ object _ _
  | parse _ object _ _ | appendParsed _ object _ _ => [object]
  | declareDefault .. | declareList .. | construct .. => []

/-- The locals with values that a statement reads or changes. -/
def fields : Statement → List String
  | appendScalars field _ _ _ | parse field _ _ _ | appendParsed field _ _ _ => [field]
  | construct _ arguments => arguments.map (·.source)
  | bind .. | require .. | scalar .. | declareDefault .. | declareList .. => []

end Statement

def declaredLocals (body : List Statement) : List String :=
  body.filterMap Statement.declared?

def boundObjects (body : List Statement) : List String :=
  body.filterMap fun
    | .bind object _ _ => some object
    | _ => none

/-- A body that uses only what is declared, each thing once and before its use. -/
def Closed (body : List Statement) : Prop :=
  (rootLocal :: declaredLocals body).Nodup ∧
    ∀ before s after, body = before ++ s :: after →
      (∀ o ∈ s.objects, o ∈ rootLocal :: boundObjects before) ∧
        ∀ f ∈ s.fields, f ∈ declaredLocals before

/-- The segments of an object that a class can reach: the document, or one that a step looks
up. -/
def Reaches (c : ClassModel) (segments : List String) : Prop :=
  segments = [JsonPath.rootSegment] ∨ ∃ l ∈ steps c, l.segments = segments

/-- Whether a value of a shape is parsed by the function of its class. -/
def isParsed (shape : JsonShape) : Bool :=
  shape == .object || shape == .objectArray

/-- A class whose steps and properties refer only to objects that it can reach, and only to
classes among the given ones. -/
def RefersWithin (classes : List ClassModel) (c : ClassModel) : Prop :=
  (∀ l ∈ steps c, Reaches c l.parents) ∧
    ∀ m ∈ c.members, ∀ s, m.json = some s →
      Reaches c s.parents ∧
        (isParsed s.shape → ∃ d ∈ classes, d.nestedName = m.nestedType)

/-- A model whose classes refer only to what the model holds. -/
def Complete (m : Model) : Prop :=
  ∀ c ∈ m.root.postorder, RefersWithin m.root.nested c

end BeanForge.Decoder
